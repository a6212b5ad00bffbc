import AdhocReport.Proofs.Expression.Cut
set_option autoImplicit false

/-!
# Expressions: scanning loses nothing

The tokens of a scanned text tile it: each is a part of the text, in the place that its position says, and
what stands outside of them is blank.  Every cut takes a character at least, so the scan comes to an end; and
it gives up only where neither blanks nor a token of any form can be taken from the front, or behind a point
that follows a name and has no field.
-/

namespace AdhocReport.Token

open Text

/-! ## Where there is nothing to cut -/

/-- Nothing can be taken from the front of the characters. -/
def Unmatched (cs : List Char) : Prop := ∀ kind lexeme, Form kind lexeme → ¬ lexeme <+: cs

theorem ne_backslash_of_isQuote {quote : Char} (h : IsQuote quote) : '\\' ≠ quote := by
  rintro rfl
  rcases h with h | h <;> cases h

theorem spanQuoted_of_quoted {quote : Char} (hquote : IsQuote quote) {body : List Char} (h : Quoted quote body)
    (rest : List Char) : spanQuoted quote (body ++ rest) = some (body, rest) := by
  induction h with
  | close =>
    rw [List.cons_append, spanQuoted.eq_def]
    dsimp only
    rw [if_pos (beq_self_eq_true quote), List.nil_append]
  | plain hclose hescape _ ih =>
    rw [List.cons_append, spanQuoted.eq_def]
    dsimp only
    rw [if_neg (by simpa using hclose), if_neg (by simpa using hescape), ih]
    rfl
  | escape hbreak _ ih =>
    have hclose := ne_backslash_of_isQuote hquote
    rw [List.cons_append, List.cons_append, spanQuoted.eq_def]
    dsimp only
    rw [if_neg (by simpa using hclose), if_pos (by decide), if_neg (by simpa using hbreak), ih]
    rfl

/-- No form is that of the end marker. -/
theorem Form.ne_ending {kind : TokenKind} {lexeme : List Char} (h : Form (some kind) lexeme) : kind ≠ .ending := by
  rintro rfl
  cases h with
  | single hsingle => exact singleKind?_ne_ending _ hsingle

/-- Where there is nothing to cut, each of the readers has found nothing. -/
theorem unread_of_cut {cs : List Char} (h : cut? cs = none) :
    (∀ c ∈ cs.head?, isBlank c = false ∧ singleKind? c = none) ∧ spanNumber cs = none ∧ spanName cs = none ∧
      spanText cs = none := by
  unfold cut? at h
  split at h
  · exact ⟨fun c hc => (nomatch hc), rfl, rfl, rfl⟩
  rename_i c tail
  split at h
  · cases h
  rename_i hblank
  split at h
  · cases h
  split at h
  · cases h
  rename_i hnumber
  split at h
  · cases h
  rename_i hname
  split at h
  · cases h
  rename_i htext
  refine ⟨?_, hnumber, hname, htext⟩
  rintro d ⟨⟩
  exact ⟨Bool.eq_false_iff.mpr hblank, Option.map_eq_none_iff.mp h⟩

theorem Named.spanName_ne_none {cs : List Char} (h : Named cs) (rest : List Char) : spanName (cs ++ rest) ≠ none := by
  obtain ⟨c, tail, rfl, hc, -⟩ := h
  rw [List.cons_append, spanName, if_pos hc]
  exact Option.some_ne_none _

/-- Where one of the forms begins, whatever follows it, there is something to cut. -/
theorem Form.cut?_ne_none {kind : Option TokenKind} {lexeme : List Char} (h : Form kind lexeme) (rest : List Char) :
    cut? (lexeme ++ rest) ≠ none := by
  intro hnone
  obtain ⟨hfirst, hnumber, hname, htext⟩ := unread_of_cut hnone
  cases h with
  | blanks hne hbs =>
    obtain ⟨b, bs, rfl⟩ := List.exists_cons_of_ne_nil hne
    have hblank := (hfirst b rfl).1
    rw [hbs b List.mem_cons_self] at hblank
    cases hblank
  | reference hmodel _ _ =>
    rw [List.append_assoc, List.append_assoc] at hname
    exact hmodel.spanName_ne_none _ hname
  | number hspelled => exact hspelled.scan?_ne_none rest (Option.map_eq_none_iff.mp hnumber)
  | name hnamed => exact hnamed.spanName_ne_none rest hname
  | text hquote hbody =>
    rw [List.cons_append, spanText, if_pos (by simpa [IsQuote] using hquote),
      spanQuoted_of_quoted hquote hbody] at htext
    cases htext
  | @single c kind hkind =>
    have hsingle := (hfirst c rfl).2
    rw [hkind] at hsingle
    cases hsingle

/-- There is nothing to cut exactly where nothing can be taken from the front. -/
theorem cut?_eq_none_iff {cs : List Char} : cut? cs = none ↔ Unmatched cs := by
  constructor
  · intro h kind lexeme hform hprefix
    obtain ⟨rest, rfl⟩ := hprefix
    exact hform.cut?_ne_none rest h
  · intro h
    cases hcut : cut? cs with
    | none => rfl
    | some cut =>
      obtain ⟨hpiece, hcs⟩ := piece_of_cut hcut
      exact absurd ⟨cut.rest, hcs.symm⟩ (h cut.kind cut.lexeme hpiece.form)

/-! ## The scan without fuel -/

/-- The tokens that are scanned behind a cut, with that of the cut before them. -/
def Cut.placed (cut : Cut) (position : ℕ) (ts : List Token) : List Token :=
  match cut.kind with
  | some kind => ⟨kind, cut.lexeme, position⟩ :: ts
  | none => ts

/-- The scan of characters that begin at a position, cut after cut. -/
inductive Scanning : ℕ → List Char → Except SyntaxError (List Token) → Prop
  | ending (position : ℕ) : Scanning position [] (.ok [⟨.ending, [], position⟩])
  | unmatched {position : ℕ} {c : Char} {tail : List Char} : cut? (c :: tail) = none →
      Scanning position (c :: tail) (.error ⟨faultAt c, position⟩)
  | dangling {position : ℕ} {cs : List Char} {cut : Cut} : cut? cs = some cut → cut.dangles = true →
      Scanning position cs (.error ⟨.missingField, position + cut.lexeme.length + 1⟩)
  | further {position : ℕ} {cs : List Char} {cut : Cut} {result : Except SyntaxError (List Token)} :
      cut? cs = some cut → cut.dangles = false → Scanning (position + cut.lexeme.length) cut.rest result →
      Scanning position cs (result.map (cut.placed position))

/-- The scan comes to an end at every text, since each cut leaves less of it. -/
theorem exists_scanning (position : ℕ) (cs : List Char) : ∃ result, Scanning position cs result := by
  induction hlength : cs.length using Nat.strong_induction_on generalizing position cs with
  | _ n ih =>
    subst hlength
    cases cs with
    | nil => exact ⟨_, .ending position⟩
    | cons c tail =>
      cases hcut : cut? (c :: tail) with
      | none => exact ⟨_, .unmatched hcut⟩
      | some cut =>
        cases hdangles : cut.dangles with
        | true => exact ⟨_, .dangling hcut hdangles⟩
        | false =>
          obtain ⟨result, hresult⟩ := ih _ (cut?_progress hcut).2.2 (position + cut.lexeme.length) cut.rest rfl
          exact ⟨_, .further hcut hdangles hresult⟩

theorem scanFrom_of_cut {fuel position : ℕ} {cs : List Char} {cut : Cut} (h : cut? cs = some cut) :
    scanFrom (fuel + 1) position cs =
      if cut.dangles then .error ⟨.missingField, position + cut.lexeme.length + 1⟩
      else (scanFrom fuel (position + cut.lexeme.length) cut.rest).map (cut.placed position) := by
  cases cs with
  | nil => cases h
  | cons c tail =>
    rw [scanFrom, h]
    dsimp only
    split
    · rfl
    · cases scanFrom fuel (position + cut.lexeme.length) cut.rest <;> rfl

/-- With fuel for every character, the scanner comes to what the scan does. -/
theorem Scanning.scanFrom_eq {position : ℕ} {cs : List Char} {result : Except SyntaxError (List Token)}
    (h : Scanning position cs result) {fuel : ℕ} (hfuel : cs.length ≤ fuel) : scanFrom fuel position cs = result := by
  induction h generalizing fuel with
  | ending position => cases fuel <;> rfl
  | unmatched hcut =>
    obtain ⟨fuel, rfl⟩ := Nat.exists_eq_add_one.mpr (Nat.lt_of_lt_of_le (Nat.succ_pos _) hfuel)
    rw [scanFrom, hcut]
  | dangling hcut hdangles =>
    have hprogress := (cut?_progress hcut).2.2
    obtain ⟨fuel, rfl⟩ := Nat.exists_eq_add_one.mpr (show 0 < fuel by omega)
    rw [scanFrom_of_cut hcut, if_pos hdangles]
  | further hcut hdangles _ ih =>
    have hprogress := (cut?_progress hcut).2.2
    obtain ⟨fuel, rfl⟩ := Nat.exists_eq_add_one.mpr (show 0 < fuel by omega)
    rw [scanFrom_of_cut hcut, if_neg (by simp [hdangles]), ih (by omega)]

theorem scanning_iff {text : String} {result : Except SyntaxError (List Token)} :
    Scanning 0 text.toList result ↔ scan text = result := by
  constructor
  · intro h
    exact h.scanFrom_eq le_rfl
  · intro h
    obtain ⟨result', hresult⟩ := exists_scanning 0 text.toList
    have hsame : scan text = result' := hresult.scanFrom_eq le_rfl
    rw [← h, hsame]
    exact hresult

/-! ## Tiles -/

/-- The tokens tile the characters that begin at a position: blanks may stand before each of them, and the end
marker is behind the last character. -/
inductive Tiles : ℕ → List Char → List Token → Prop
  | ending (position : ℕ) : Tiles position [] [⟨.ending, [], position⟩]
  | blanks {position : ℕ} {bs rest : List Char} {ts : List Token} : (∀ b ∈ bs, isBlank b = true) →
      Tiles (position + bs.length) rest ts → Tiles position (bs ++ rest) ts
  | token {position : ℕ} {kind : TokenKind} {lexeme rest : List Char} {ts : List Token} : Form (some kind) lexeme →
      Tiles (position + lexeme.length) rest ts → Tiles position (lexeme ++ rest) (⟨kind, lexeme, position⟩ :: ts)

theorem Tiles.of_piece {position : ℕ} {cut : Cut} {ts : List Token} (hpiece : Piece cut.kind cut.lexeme cut.rest)
    (h : Tiles (position + cut.lexeme.length) cut.rest ts) :
    Tiles position (cut.lexeme ++ cut.rest) (cut.placed position ts) := by
  have hform := hpiece.form
  obtain ⟨kind, lexeme, rest⟩ := cut
  cases kind with
  | none =>
    cases hform with
    | blanks _ hbs => exact .blanks hbs h
  | some kind => exact .token hform h

theorem Scanning.tiles {position : ℕ} {cs : List Char} {result : Except SyntaxError (List Token)}
    (h : Scanning position cs result) {ts : List Token} (hresult : result = .ok ts) : Tiles position cs ts := by
  induction h generalizing ts with
  | ending position =>
    cases hresult
    exact .ending position
  | unmatched _ => cases hresult
  | dangling _ _ => cases hresult
  | @further position cs cut result hcut _ _ ih =>
    obtain ⟨hpiece, hcs⟩ := piece_of_cut hcut
    cases result with
    | error e => cases hresult
    | ok rest =>
      cases hresult
      rw [hcs]
      exact .of_piece hpiece (ih rfl)

section

variable {position : ℕ} {cs : List Char} {ts : List Token}

theorem Tiles.position_le (h : Tiles position cs ts) : ∀ t ∈ ts, position ≤ t.position := by
  induction h with
  | ending position => simp
  | blanks _ _ ih => exact fun t ht => le_trans (Nat.le_add_right _ _) (ih t ht)
  | token _ _ ih =>
    refine List.forall_mem_cons.mpr ⟨le_rfl, fun t ht => ?_⟩
    exact le_trans (Nat.le_add_right _ _) (ih t ht)

/-- Each token begins behind the one before it. -/
theorem Tiles.ordered (h : Tiles position cs ts) :
    ts.Pairwise fun s t => s.position < t.position ∧ s.position + s.lexeme.length ≤ t.position := by
  induction h with
  | ending position => exact List.pairwise_singleton _ _
  | blanks _ _ ih => exact ih
  | token hform hrest ih =>
    refine List.pairwise_cons.mpr ⟨fun t ht => ?_, ih⟩
    have hpos := List.length_pos_iff.mpr hform.ne_nil
    have hle := hrest.position_le t ht
    exact ⟨by dsimp only; omega, hle⟩

theorem Tiles.formed (h : Tiles position cs ts) :
    ∀ t ∈ ts, Form (some t.kind) t.lexeme ∨ t.kind = .ending ∧ t.lexeme = [] := by
  induction h with
  | ending position => simp
  | blanks _ _ ih => exact ih
  | token hform _ ih => exact List.forall_mem_cons.mpr ⟨.inl hform, ih⟩

/-- The one end marker is last. -/
theorem Tiles.ended (h : Tiles position cs ts) :
    ∃ body, ts = body ++ [⟨.ending, [], position + cs.length⟩] ∧ ∀ t ∈ body, t.kind ≠ .ending := by
  induction h with
  | ending position => exact ⟨[], rfl, List.forall_mem_nil _⟩
  | @blanks position bs rest ts _ _ ih =>
    obtain ⟨body, rfl, hbody⟩ := ih
    exact ⟨body, by rw [List.length_append, Nat.add_assoc], hbody⟩
  | @token position kind lexeme rest ts hform _ ih =>
    obtain ⟨body, rfl, hbody⟩ := ih
    refine ⟨⟨kind, lexeme, position⟩ :: body, ?_, List.forall_mem_cons.mpr ⟨hform.ne_ending, hbody⟩⟩
    rw [List.length_append, Nat.add_assoc, List.cons_append]

variable {text : List Char}

theorem drop_add_length {xs rest : List Char} (h : text.drop position = xs ++ rest) :
    text.drop (position + xs.length) = rest := by
  rw [← List.drop_drop, h, List.drop_left]

/-- The text of a token stands at its position. -/
theorem Tiles.sliced (h : Tiles position cs ts) (htext : text.drop position = cs) :
    ∀ t ∈ ts, (text.drop t.position).take t.lexeme.length = t.lexeme := by
  induction h with
  | ending position => simp
  | blanks _ _ ih => exact ih (drop_add_length htext)
  | token _ _ ih =>
    refine List.forall_mem_cons.mpr ⟨?_, ih (drop_add_length htext)⟩
    rw [htext, List.take_left]

/-- A character of what is left is in its first part or behind it. -/
theorem mem_or_le {xs rest : List Char} (htext : text.drop position = xs ++ rest) {i : ℕ} (hi : position ≤ i) {c : Char}
    (hc : text[i]? = some c) : i < position + xs.length ∧ c ∈ xs ∨ position + xs.length ≤ i := by
  rcases Nat.lt_or_ge i (position + xs.length) with hlt | hle
  · refine .inl ⟨hlt, ?_⟩
    have hget : (text.drop position)[i - position]? = some c := by
      rw [List.getElem?_drop, Nat.add_sub_cancel' hi, hc]
    rw [htext, List.getElem?_append_left (by omega)] at hget
    exact List.mem_of_getElem? hget
  · exact .inr hle

/-- A character outside of all tokens is blank. -/
theorem Tiles.covered (h : Tiles position cs ts) (htext : text.drop position = cs) {i : ℕ} (hi : position ≤ i)
    {c : Char} (hc : text[i]? = some c) :
    isBlank c = true ∨ ∃ t ∈ ts, t.position ≤ i ∧ i < t.position + t.lexeme.length := by
  induction h with
  | ending position =>
    have hlength := List.drop_eq_nil_iff.mp htext
    rw [List.getElem?_eq_none (by omega)] at hc
    cases hc
  | blanks hbs _ ih =>
    rcases mem_or_le htext hi hc with ⟨-, hmem⟩ | hle
    · exact .inl (hbs c hmem)
    · exact ih (drop_add_length htext) hle
  | token _ _ ih =>
    rcases mem_or_le htext hi hc with ⟨hlt, -⟩ | hle
    · exact .inr ⟨_, List.mem_cons_self, hi, hlt⟩
    · refine (ih (drop_add_length htext) hle).imp_right ?_
      rintro ⟨t, ht, hinside⟩
      exact ⟨t, List.mem_cons_of_mem _ ht, hinside⟩

end

/-- The tokens say the whole text, but for blanks. -/
structure Lossless (text : List Char) (ts : List Token) : Prop where
  increasing : ts.Pairwise fun s t => s.position < t.position
  apart : ts.Pairwise fun s t => s.position + s.lexeme.length ≤ t.position
  sliced : ∀ t ∈ ts, (text.drop t.position).take t.lexeme.length = t.lexeme
  covered : ∀ i c, text[i]? = some c →
    isBlank c = true ∨ ∃ t ∈ ts, t.position ≤ i ∧ i < t.position + t.lexeme.length
  formed : ∀ t ∈ ts, t.kind ≠ .ending → Form (some t.kind) t.lexeme
  empty : ∀ t ∈ ts, t.lexeme = [] ↔ t.kind = .ending
  ended : ∃ body, ts = body ++ [⟨.ending, [], text.length⟩] ∧ ∀ t ∈ body, t.kind ≠ .ending

theorem Tiles.lossless {text : List Char} {ts : List Token} (h : Tiles 0 text ts) : Lossless text ts where
  increasing := h.ordered.imp fun hpair => hpair.1
  apart := h.ordered.imp fun hpair => hpair.2
  sliced := h.sliced rfl
  covered := fun _ _ => h.covered rfl (Nat.zero_le _)
  formed := fun t ht hkind => (h.formed t ht).resolve_right fun hending => hkind hending.1
  empty := fun t ht => by
    rcases h.formed t ht with hform | ⟨hkind, hlexeme⟩
    · exact iff_of_false hform.ne_nil hform.ne_ending
    · exact iff_of_true hlexeme hkind
  ended := by simpa only [Nat.zero_add] using h.ended

/-! ## Refusals -/

/-- Why the scan gives up: nothing can be taken from the front at a position, or a point follows a name there
and no field follows the point. -/
inductive Refused (text : List Char) : SyntaxError → Prop
  | unmatched {position : ℕ} {c : Char} {tail : List Char} : text.drop position = c :: tail → Unmatched (c :: tail) →
      Refused text ⟨faultAt c, position⟩
  | dangling {position : ℕ} {name after : List Char} : text.drop position = name ++ '.' :: after → Named name →
      (∀ field, Named field → ¬ field <+: after) → Refused text ⟨.missingField, position + name.length + 1⟩

theorem spanReference_of_cut {cs : List Char} {cut : Cut} (h : cut? cs = some cut) (hkind : cut.kind = some .name) :
    spanReference cs = none := by
  unfold cut? at h
  split at h
  · cases h
  split at h
  · cases h
    cases hkind
  split at h
  · cases h
    cases hkind
  · rename_i hnone
    exact hnone

/-- A name before a point is no reference only if no field follows. -/
theorem no_field_of_spanReference {name after : List Char} (hname : Named name)
    (h : spanReference (name ++ '.' :: after) = none) : ∀ field, Named field → ¬ field <+: after := by
  rintro field hfield ⟨rest, rfl⟩
  have hends : Ends ('.' :: (field ++ rest)) := by
    rintro c ⟨⟩
    decide
  have hspan : spanName (name ++ '.' :: (field ++ rest)) = some (name, '.' :: (field ++ rest)) :=
    spanName_eq_some_iff.mpr ⟨hname, hends, rfl⟩
  have hpoint : ('.' :: (field ++ rest)).dropWhile isBlank = '.' :: (field ++ rest) :=
    List.dropWhile_cons_of_neg (by decide)
  rw [spanReference, hspan] at h
  simp only [Option.bind_eq_bind, Option.bind_some, hpoint] at h
  obtain ⟨found, hfound⟩ := Option.ne_none_iff_exists'.mp (hfield.spanName_ne_none rest)
  rw [hfound] at h
  cases h

theorem Scanning.refused {position : ℕ} {cs : List Char} {result : Except SyntaxError (List Token)}
    (h : Scanning position cs result) {text : List Char} (htext : text.drop position = cs) {e : SyntaxError}
    (hresult : result = .error e) : Refused text e := by
  induction h generalizing e with
  | ending position => cases hresult
  | unmatched hcut =>
    cases hresult
    exact .unmatched htext (cut?_eq_none_iff.mp hcut)
  | @dangling position cs cut hcut hdangles =>
    cases hresult
    obtain ⟨hpiece, hcs⟩ := piece_of_cut hcut
    obtain ⟨kind, lexeme, rest⟩ := cut
    simp only [Cut.dangles, Bool.and_eq_true, beq_iff_eq] at hdangles hpiece hcs
    obtain ⟨hkind, hhead⟩ := hdangles
    obtain ⟨after, hrest⟩ := List.head?_eq_some_iff.mp hhead
    -- a name is cut only where no reference is, so no field can stand behind the point
    have hnone := spanReference_of_cut hcut hkind
    rw [hrest] at hcs
    rw [hkind] at hpiece
    cases hpiece with
    | single hsingle => rcases (mem_singles_of_singleKind? hsingle).2 with h | h | h | h <;> cases h
    | name hname _ =>
      rw [hcs] at hnone htext
      exact .dangling htext hname (no_field_of_spanReference hname hnone)
  | @further position cs cut result hcut _ _ ih =>
    cases result with
    | ok rest => cases hresult
    | error e' =>
      cases hresult
      have hcs := (piece_of_cut hcut).2
      rw [hcs] at htext
      exact ih (drop_add_length htext) rfl

theorem Refused.unmatched_of_fault {text : List Char} {e : SyntaxError} (h : Refused text e)
    (hfault : e.fault ≠ .missingField) : ∃ c tail, text.drop e.position = c :: tail ∧ e.fault = faultAt c ∧
      Unmatched (text.drop e.position) := by
  cases h with
  | unmatched htext hnone => exact ⟨_, _, htext, rfl, htext ▸ hnone⟩
  | dangling _ _ _ => exact absurd rfl hfault

/-! ## The scan of a text -/

/-- Scanning loses nothing.  Every cut takes a character at least and leaves the text behind it, so the scan
comes to an end at every text, and there is one outcome.  The tokens of a text increase in their positions, do
not overlap and are the parts of the text at their positions, with nothing but blanks outside of them; none
but the end marker, which stands last and at the length of the text, is empty.  The scan gives up over a
character or an unterminated string only where nothing can be taken from the front. -/
theorem scan_lossless (text : String) :
    (∀ cs cut, cut? cs = some cut →
      cs = cut.lexeme ++ cut.rest ∧ cut.lexeme ≠ [] ∧ cut.rest.length < cs.length) ∧
    (∀ result, Scanning 0 text.toList result ↔ scan text = result) ∧
    (∀ ts, scan text = .ok ts → Lossless text.toList ts) ∧
    ∀ e, scan text = .error e → Refused text.toList e ∧
      (e.fault ≠ .missingField → ∃ c tail, text.toList.drop e.position = c :: tail ∧ e.fault = faultAt c ∧
        Unmatched (text.toList.drop e.position)) := by
  refine ⟨fun cs cut => cut?_progress, fun result => scanning_iff, fun ts hts => ?_, fun e he => ?_⟩
  · exact ((scanning_iff.mpr hts).tiles rfl).lossless
  · have hrefused := (scanning_iff.mpr he).refused rfl rfl
    exact ⟨hrefused, hrefused.unmatched_of_fault⟩

example : scan "orders.total * 2" =
    .ok [⟨.reference, "orders.total".toList, 0⟩, ⟨.operator, ['*'], 13⟩, ⟨.number, ['2'], 15⟩, ⟨.ending, [], 16⟩] := by
  decide +kernel

example : scan "a.b + 'c" = .error ⟨.unterminatedText, 6⟩ := by
  decide +kernel

end AdhocReport.Token
