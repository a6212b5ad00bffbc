import AdhocReport.Proofs.Expression.Column
import AdhocReport.Proofs.Decimal.Numeral
import AdhocReport.Text.Word
set_option autoImplicit false

/-!
# Expressions: the pieces of a text

The scanner cuts a text into pieces: blanks and tokens.  Each piece is described by its characters and by
what may follow it, and the pieces of a text, one after the other, are the text.
-/

namespace AdhocReport

/-! ## Digits, blanks and words -/

namespace Text

theorem digits_in_words :
    (digitZeros.all fun z => (z + 9).blt 0x80 || wordRanges.any fun r => r.1.ble z && (z + 9).ble r.2) = true := by
  decide +kernel

theorem blanks_outside_words :
    (blankRanges.all fun b => b.2.blt 0x80 || wordRanges.all fun r => b.2.blt r.1 || r.2.blt b.1) = true := by
  decide +kernel

/-- The digits of every script are word characters. -/
theorem isWord_of_isDigit {c : Char} (h : isDigit c = true) : isWord c = true := by
  unfold isDigit digitValue? at h
  unfold isWord
  split at h
  · rename_i hascii
    rw [if_pos hascii]
    split at h
    · rename_i hdigit
      have hc : c.isDigit = true := by
        simpa [Char.isDigit, UInt32.le_iff_toNat_le] using hdigit
      simp [Char.isAlphanum, hc]
    · cases h
  · rename_i hascii
    rw [if_neg hascii]
    obtain ⟨z, hz⟩ := Option.isSome_iff_exists.mp (Option.isSome_map ▸ h)
    have hrange : z ≤ c.toNat ∧ c.toNat < z + 10 := by simpa using List.find?_some hz
    have hwords := List.all_eq_true.mp digits_in_words z (List.mem_of_find?_eq_some hz)
    simp only [Bool.or_eq_true, Nat.blt_eq, List.any_eq_true, Bool.and_eq_true, Nat.ble_eq] at hwords
    simp only [inRanges, List.any_eq_true, Bool.and_eq_true, decide_eq_true_eq]
    rcases hwords with hsmall | ⟨r, hr, hlow, hhigh⟩
    · omega
    · exact ⟨r, hr, by omega, by omega⟩

theorem isWord_of_isBlank {c : Char} (h : isBlank c = true) : isWord c = false := by
  unfold isWord
  split
  · exact Bool.eq_false_iff.mpr fun hname => Bool.noConfusion (h.symm.trans (Token.isBlank_of_continuesName hname))
  · rename_i hascii
    simp only [isBlank, inRanges, List.any_eq_true, Bool.and_eq_true, decide_eq_true_eq] at h
    obtain ⟨b, hb, hlow, hhigh⟩ := h
    have hwords := List.all_eq_true.mp blanks_outside_words b hb
    simp only [Bool.or_eq_true, Nat.blt_eq, List.all_eq_true] at hwords
    refine List.any_eq_false.mpr fun r hr => ?_
    simp only [Bool.and_eq_true, decide_eq_true_eq, not_and]
    rcases hwords with hsmall | hapart
    · omega
    · have := hapart r hr
      omega

end Text

namespace Token

open Text

theorem continuesName_of_startsName {c : Char} (h : startsName c = true) : continuesName c = true := by
  simp only [startsName, Bool.or_eq_true] at h
  simp only [continuesName, Char.isAlphanum, Bool.or_eq_true]
  exact h.imp_left .inl

theorem isWord_of_continuesName {c : Char} (h : continuesName c = true) : isWord c = true := by
  have hrange := toNat_of_continuesName h
  rw [isWord, if_pos (by omega)]
  exact h

/-- No digit of any script is a letter or an underscore. -/
theorem startsName_of_isDigit {c : Char} (h : isDigit c = true) : startsName c = false := by
  refine Bool.eq_false_iff.mpr fun hname => ?_
  have hrange := toNat_of_continuesName (continuesName_of_startsName hname)
  unfold isDigit digitValue? at h
  rw [if_pos (by omega)] at h
  split at h
  · rename_i hdigit
    have hletter : c.isAlpha = (decide (c.val ≥ 'A'.val ∧ c.val ≤ 'Z'.val) ||
        (decide (c.val ≥ 'a'.val) && decide (c.val ≤ 'z'.val))) := rfl
    simp only [startsName, hletter, Bool.or_eq_true, Bool.and_eq_true, decide_eq_true_eq, beq_iff_eq, ge_iff_le,
      UInt32.le_iff_toNat_le] at hname
    have hvalue : c.val.toNat = c.toNat := rfl
    rcases hname with (hname | hname) | rfl
    · have : 'A'.val.toNat = 65 := rfl
      omega
    · have : 'a'.val.toNat = 97 := rfl
      omega
    · exact absurd hdigit (by decide)
  · cases h

/-! ## Names -/

/-- A name, with a first character that may start one. -/
def Named (cs : List Char) : Prop :=
  ∃ c tail, cs = c :: tail ∧ startsName c = true ∧ ∀ d ∈ tail, continuesName d = true

/-- No name goes on in the characters. -/
def Ends (cs : List Char) : Prop := ∀ c ∈ cs.head?, continuesName c = false

theorem Named.isName {cs : List Char} (h : Named cs) : IsName cs := by
  obtain ⟨c, tail, rfl, hc, htail⟩ := h
  exact ⟨List.cons_ne_nil _ _, List.forall_mem_cons.mpr ⟨continuesName_of_startsName hc, htail⟩⟩

/-- A name is read as far as it goes. -/
theorem spanName_eq_some_iff {cs name rest : List Char} :
    spanName cs = some (name, rest) ↔ Named name ∧ Ends rest ∧ cs = name ++ rest := by
  constructor
  · intro h
    unfold spanName at h
    split at h
    · cases h
    · rename_i c tail
      split at h
      · rename_i hc
        cases h
        refine ⟨⟨c, _, rfl, hc, fun d => List.mem_takeWhile_imp⟩, fun d hd => ?_, ?_⟩
        · have hfirst := List.head?_dropWhile_not continuesName tail
          rw [Option.mem_def.mp hd] at hfirst
          exact hfirst
        · rw [List.cons_append, List.takeWhile_append_dropWhile]
      · cases h
  · rintro ⟨⟨c, tail, rfl, hc, htail⟩, hends, rfl⟩
    have htake : (tail ++ rest).takeWhile continuesName = tail := by
      rw [List.takeWhile_append_of_pos htail]
      cases rest with
      | nil => simp
      | cons d rest => rw [List.takeWhile_cons_of_neg (by simp [hends d rfl]), List.append_nil]
    have hdrop : (tail ++ rest).dropWhile continuesName = rest := by
      rw [List.dropWhile_append_of_pos htail]
      cases rest with
      | nil => rfl
      | cons d rest => rw [List.dropWhile_cons_of_neg (by simp [hends d rfl])]
    rw [List.cons_append, spanName, if_pos hc, htake, hdrop]

theorem spanName_eq_none {c : Char} (h : startsName c = false) (cs : List Char) : spanName (c :: cs) = none := by
  rw [spanName, if_neg (by simp [h])]

/-! ## What the readers take -/

theorem spanReference_eq_some {cs lexeme rest : List Char} (h : spanReference cs = some (lexeme, rest)) :
    ∃ model blanks field, lexeme = model ++ blanks ++ '.' :: field ∧ Named model ∧
      (∀ b ∈ blanks, isBlank b = true) ∧ Named field ∧ Ends rest ∧ cs = lexeme ++ rest := by
  unfold spanReference at h
  obtain ⟨⟨model, after⟩, hmodel, h⟩ := Option.bind_eq_some_iff.mp h
  dsimp only at h
  split at h
  · rename_i behind hpoint
    obtain ⟨⟨field, last⟩, hfield, h⟩ := Option.bind_eq_some_iff.mp h
    cases h
    obtain ⟨hnamed, -, hcs⟩ := spanName_eq_some_iff.mp hmodel
    obtain ⟨hfieldNamed, hends, hbehind⟩ := spanName_eq_some_iff.mp hfield
    refine ⟨model, _, field, rfl, hnamed, fun b => List.mem_takeWhile_imp, hfieldNamed, hends, ?_⟩
    have hafter : after = after.takeWhile isBlank ++ '.' :: behind := by
      rw [← hpoint, List.takeWhile_append_dropWhile]
    rw [hbehind] at hafter
    rw [List.append_assoc, List.append_assoc, List.cons_append, ← hafter, hcs]
  · cases h

theorem spanNumber_eq_some {cs lexeme rest : List Char} (h : spanNumber cs = some (lexeme, rest)) :
    (∃ n : Decimal.Numeral, n.Spelled lexeme) ∧ cs = lexeme ++ rest := by
  obtain ⟨⟨n, after⟩, hscan, hfound⟩ := Option.map_eq_some_iff.mp h
  obtain ⟨text, hspelled, rfl⟩ := Decimal.Numeral.scan?_spelled hscan
  obtain ⟨hlexeme, rfl⟩ := Prod.mk.inj hfound
  have htext : lexeme = text := by
    rw [← hlexeme, List.length_append, Nat.add_sub_cancel, List.take_left]
  exact ⟨⟨n, htext ▸ hspelled⟩, by rw [htext]⟩

theorem spanQuoted_append {quote : Char} {cs lexeme rest : List Char}
    (h : spanQuoted quote cs = some (lexeme, rest)) : cs = lexeme ++ rest := by
  fun_induction spanQuoted quote cs generalizing lexeme with
  | case1 => cases h
  | case2 => cases h; rfl
  | case3 => cases h
  | case4 c hd htail _ _ _ ih =>
    obtain ⟨⟨inner, after⟩, hinner, hfound⟩ := Option.map_eq_some_iff.mp h
    cases hfound
    rw [ih hinner, List.cons_append, List.cons_append]
  | case5 => cases h
  | case6 c tail _ _ ih =>
    obtain ⟨⟨inner, after⟩, hinner, hfound⟩ := Option.map_eq_some_iff.mp h
    cases hfound
    rw [ih hinner, List.cons_append]

/-- The character opens a string. -/
def IsQuote (c : Char) : Prop := c = '\'' ∨ c = '"'

theorem not_isQuote_of_continuesName {c : Char} (h : continuesName c = true) : ¬IsQuote c := by
  rintro (rfl | rfl) <;> exact absurd h (by decide)

theorem not_isQuote_of_isBlank {c : Char} (h : isBlank c = true) : ¬IsQuote c := by
  rintro (rfl | rfl) <;> exact absurd h (by decide)

theorem not_isQuote_of_isDigit {c : Char} (h : isDigit c = true) : ¬IsQuote c := by
  rintro (rfl | rfl) <;> exact absurd h (by decide)

theorem not_isQuote_of_spellingChar {c : Char} (h : Decimal.SpellingChar c) : ¬IsQuote c := by
  rcases h with h | h | h | h | h
  · exact not_isQuote_of_isDigit h
  all_goals rintro (rfl | rfl) <;> exact absurd h (by decide)

theorem spanText_eq_some {cs lexeme rest : List Char} (h : spanText cs = some (lexeme, rest)) :
    cs = lexeme ++ rest ∧ ∃ quote body, lexeme = quote :: body ∧ IsQuote quote := by
  unfold spanText at h
  split at h
  · rename_i c tail
    split at h
    · rename_i hquote
      obtain ⟨⟨body, after⟩, hbody, hfound⟩ := Option.map_eq_some_iff.mp h
      cases hfound
      refine ⟨?_, c, body, rfl, by simpa [IsQuote] using hquote⟩
      rw [spanQuoted_append hbody, List.cons_append]
    · cases h
  · cases h

theorem spanText_eq_none {c : Char} (h : ¬IsQuote c) (cs : List Char) : spanText (c :: cs) = none := by
  rw [spanText, if_neg (by simpa [IsQuote] using h)]

/-- The characters that are tokens by themselves. -/
def singles : List Char := ['+', '-', '*', '/', '(', ')', ',']

theorem mem_singles_of_singleKind? {c : Char} {kind : TokenKind} (h : singleKind? c = some kind) :
    c ∈ singles ∧ (kind = .operator ∨ kind = .opening ∨ kind = .closing ∨ kind = .comma) := by
  unfold singleKind? at h
  split at h
  · rename_i hc
    cases h
    simp only [Bool.or_eq_true, beq_iff_eq] at hc
    simp only [singles, List.mem_cons]
    tauto
  · split at h
    · rename_i hc
      cases h
      simp [singles, beq_iff_eq.mp hc]
    · split at h
      · rename_i hc
        cases h
        simp [singles, beq_iff_eq.mp hc]
      · split at h
        · rename_i hc
          cases h
          simp [singles, beq_iff_eq.mp hc]
        · cases h

theorem singles_plain : (singles.all fun c => !startsName c && (!isBlank c && (c != '.' && !isWord c))) = true := by
  decide

theorem plain_of_mem_singles {c : Char} (h : c ∈ singles) :
    startsName c = false ∧ isBlank c = false ∧ c ≠ '.' ∧ isWord c = false := by
  simpa using List.all_eq_true.mp singles_plain c h

theorem not_isQuote_of_mem_singles {c : Char} (h : c ∈ singles) : ¬IsQuote c := by
  rintro (rfl | rfl) <;> exact absurd h (by decide)

/-! ## The forms of tokens -/

/-- The rest of a string behind its opening quote: a backslash takes the next character with it, and the first
quote that is not taken closes the string. -/
inductive Quoted (quote : Char) : List Char → Prop
  | close : Quoted quote [quote]
  | plain {c : Char} {body : List Char} : c ≠ quote → c ≠ '\\' → Quoted quote body → Quoted quote (c :: body)
  | escape {d : Char} {body : List Char} : d ≠ '\n' → Quoted quote body → Quoted quote ('\\' :: d :: body)

/-- What may be taken from the front of a text: blanks, or a token of a kind. -/
inductive Form : Option TokenKind → List Char → Prop
  | blanks {bs : List Char} : bs ≠ [] → (∀ b ∈ bs, isBlank b = true) → Form none bs
  | reference {model blanks field : List Char} : Named model → (∀ b ∈ blanks, isBlank b = true) → Named field →
      Form (some .reference) (model ++ blanks ++ '.' :: field)
  | number {n : Decimal.Numeral} {lexeme : List Char} : n.Spelled lexeme → Form (some .number) lexeme
  | name {lexeme : List Char} : Named lexeme → Form (some .name) lexeme
  | text {quote : Char} {body : List Char} : IsQuote quote → Quoted quote body → Form (some .text) (quote :: body)
  | single {c : Char} {kind : TokenKind} : singleKind? c = some kind → Form (some kind) [c]

theorem Form.ne_nil {kind : Option TokenKind} {lexeme : List Char} (h : Form kind lexeme) : lexeme ≠ [] := by
  cases h with
  | blanks hne _ => exact hne
  | reference _ _ _ => simp
  | number hspelled => exact hspelled.ne_nil
  | name hname => exact hname.isName.1
  | text _ _ => exact List.cons_ne_nil _ _
  | single _ => exact List.cons_ne_nil _ _

theorem quoted_of_spanQuoted {quote : Char} {cs body rest : List Char}
    (h : spanQuoted quote cs = some (body, rest)) : Quoted quote body := by
  fun_induction spanQuoted quote cs generalizing body with
  | case1 => cases h
  | case2 c tail hclose =>
    cases h
    rw [beq_iff_eq.mp hclose]
    exact .close
  | case3 => cases h
  | case4 c hclose hescape d tail hbreak ih =>
    obtain ⟨⟨inner, after⟩, hinner, hfound⟩ := Option.map_eq_some_iff.mp h
    cases hfound
    rw [beq_iff_eq.mp hescape]
    exact .escape (by simpa using hbreak) (ih hinner)
  | case5 => cases h
  | case6 c tail hclose hescape ih =>
    obtain ⟨⟨inner, after⟩, hinner, hfound⟩ := Option.map_eq_some_iff.mp h
    cases hfound
    exact .plain (by simpa using hclose) (by simpa using hescape) (ih hinner)

/-! ## Pieces -/

/-- What the characters of a piece are, by its kind, and what may follow them. -/
inductive Piece : Option TokenKind → List Char → List Char → Prop
  | blanks {bs rest : List Char} : bs ≠ [] → (∀ b ∈ bs, isBlank b = true) → Piece none bs rest
  | reference {model blanks field rest : List Char} : Named model → (∀ b ∈ blanks, isBlank b = true) →
      Named field → Ends rest → Piece (some .reference) (model ++ blanks ++ '.' :: field) rest
  | number {n : Decimal.Numeral} {lexeme rest : List Char} : n.Spelled lexeme → Piece (some .number) lexeme rest
  | name {name rest : List Char} : Named name → Ends rest → Piece (some .name) name rest
  | text {lexeme rest : List Char} : spanText (lexeme ++ rest) = some (lexeme, rest) → Piece (some .text) lexeme rest
  | single {c : Char} {kind : TokenKind} {rest : List Char} : singleKind? c = some kind →
      Piece (some kind) [c] rest

/-- A cut takes a piece from the front. -/
theorem piece_of_cut {cs : List Char} {cut : Cut} (h : cut? cs = some cut) :
    Piece cut.kind cut.lexeme cut.rest ∧ cs = cut.lexeme ++ cut.rest := by
  unfold cut? at h
  split at h
  · cases h
  · rename_i c tail
    split at h
    · rename_i hblank
      cases h
      refine ⟨.blanks (List.cons_ne_nil _ _) (List.forall_mem_cons.mpr ⟨hblank, fun b => List.mem_takeWhile_imp⟩), ?_⟩
      rw [List.cons_append, List.takeWhile_append_dropWhile]
    · split at h
      · rename_i hspan
        cases h
        obtain ⟨model, blanks, field, rfl, hmodel, hblanks, hfield, hends, hcs⟩ := spanReference_eq_some hspan
        exact ⟨.reference hmodel hblanks hfield hends, hcs⟩
      · split at h
        · rename_i hspan
          cases h
          obtain ⟨⟨n, hspelled⟩, hcs⟩ := spanNumber_eq_some hspan
          exact ⟨.number hspelled, hcs⟩
        · split at h
          · rename_i hspan
            cases h
            obtain ⟨hname, hends, hcs⟩ := spanName_eq_some_iff.mp hspan
            exact ⟨.name hname hends, hcs⟩
          · split at h
            · rename_i hspan
              cases h
              have hcs := (spanText_eq_some hspan).1
              exact ⟨.text (hcs ▸ hspan), hcs⟩
            · obtain ⟨kind, hkind, rfl⟩ := Option.map_eq_some_iff.mp h
              exact ⟨.single hkind, rfl⟩

theorem Piece.form {kind : Option TokenKind} {lexeme rest : List Char} (h : Piece kind lexeme rest) :
    Form kind lexeme := by
  cases h with
  | blanks hne hbs => exact .blanks hne hbs
  | reference hmodel hblanks hfield _ => exact .reference hmodel hblanks hfield
  | number hspelled => exact .number hspelled
  | name hname _ => exact .name hname
  | single hsingle => exact .single hsingle
  | text hspan =>
    obtain ⟨-, quote, body, rfl, hquote⟩ := spanText_eq_some hspan
    rw [List.cons_append, spanText, if_pos (by simpa [IsQuote] using hquote)] at hspan
    obtain ⟨⟨inner, after⟩, hinner, hfound⟩ := Option.map_eq_some_iff.mp hspan
    cases hfound
    exact .text hquote (quoted_of_spanQuoted hinner)

theorem Piece.ne_nil {kind : Option TokenKind} {lexeme rest : List Char} (h : Piece kind lexeme rest) :
    lexeme ≠ [] :=
  h.form.ne_nil

/-- A cut takes a character at least, and leaves the text behind it. -/
theorem cut?_progress {cs : List Char} {cut : Cut} (h : cut? cs = some cut) :
    cs = cut.lexeme ++ cut.rest ∧ cut.lexeme ≠ [] ∧ cut.rest.length < cs.length := by
  obtain ⟨hpiece, hcs⟩ := piece_of_cut h
  refine ⟨hcs, hpiece.ne_nil, ?_⟩
  have hpos := List.length_pos_iff.mpr hpiece.ne_nil
  rw [hcs, List.length_append]
  omega

/-- Only strings have quotes in them. -/
theorem Piece.no_quote {kind : Option TokenKind} {lexeme rest : List Char} (h : Piece kind lexeme rest)
    (hkind : kind ≠ some .text) : ∀ c ∈ lexeme, ¬IsQuote c := by
  have hnamed {cs : List Char} (hcs : Named cs) : ∀ c ∈ cs, ¬IsQuote c := fun c hc =>
    not_isQuote_of_continuesName (hcs.isName.2 c hc)
  cases h with
  | blanks _ hbs => exact fun b hb => not_isQuote_of_isBlank (hbs b hb)
  | reference hmodel hblanks hfield _ =>
    rw [List.forall_mem_append, List.forall_mem_append, List.forall_mem_cons]
    refine ⟨⟨hnamed hmodel, fun b hb => not_isQuote_of_isBlank (hblanks b hb)⟩, ?_, hnamed hfield⟩
    rintro (h | h) <;> cases h
  | number hspelled => exact fun c hc => not_isQuote_of_spellingChar (hspelled.spellingChar c hc)
  | name hname _ => exact hnamed hname
  | text _ => exact absurd rfl hkind
  | single hsingle =>
    rw [List.forall_mem_singleton]
    exact not_isQuote_of_mem_singles (mem_singles_of_singleKind? hsingle).1

/-! ## The pieces of a text -/

/-- The pieces of a text, in their order. -/
inductive Pieces : List Char → List (Option TokenKind × List Char) → Prop
  | nil : Pieces [] []
  | cons {kind : Option TokenKind} {lexeme rest : List Char} {ps : List (Option TokenKind × List Char)} :
      Piece kind lexeme rest → Pieces rest ps → Pieces (lexeme ++ rest) ((kind, lexeme) :: ps)

/-- The tokens among the pieces, without their positions. -/
def tokensOf (ps : List (Option TokenKind × List Char)) : List Token :=
  ps.filterMap fun p => p.1.map fun kind => ⟨kind, p.2, 0⟩

theorem tokensOf_some (kind : TokenKind) (lexeme : List Char) (ps : List (Option TokenKind × List Char)) :
    tokensOf ((some kind, lexeme) :: ps) = ⟨kind, lexeme, 0⟩ :: tokensOf ps := rfl

/-- A scanned text is cut into pieces, and its tokens are those of the pieces. -/
theorem pieces_of_scanFrom {fuel position : Nat} {cs : List Char} {ts : List Token}
    (h : scanFrom fuel position cs = .ok ts) (hfuel : cs.length ≤ fuel) :
    ∃ ps, Pieces cs ps ∧ tokensOf ps = ts.dropLast.map unplaced := by
  induction fuel generalizing position cs ts with
  | zero =>
    obtain rfl : cs = [] := List.length_eq_zero_iff.mp (Nat.le_zero.mp hfuel)
    cases h
    exact ⟨[], .nil, rfl⟩
  | succ fuel ih =>
    cases cs with
    | nil =>
      cases h
      exact ⟨[], .nil, rfl⟩
    | cons c tail =>
      rw [scanFrom] at h
      split at h
      · cases h
      · rename_i cut hcut
        dsimp only at h
        split at h
        · cases h
        · split at h
          · cases h
          · rename_i tokens htokens
            obtain ⟨hpiece, hcs⟩ := piece_of_cut hcut
            have hshorter := (cut?_progress hcut).2.2
            obtain ⟨ps, hps, hsame⟩ := ih htokens (by omega)
            refine ⟨(cut.kind, cut.lexeme) :: ps, hcs ▸ .cons hpiece hps, ?_⟩
            obtain ⟨body, eof, rfl, -, -⟩ := scanFrom_marked htokens
            cases h
            rw [List.dropLast_concat] at hsame
            cases hkind : cut.kind with
            | none => simpa [tokensOf] using hsame
            | some kind =>
              dsimp only
              rw [← List.cons_append, List.dropLast_concat, List.map_cons, ← hsame]
              rfl

theorem pieces_of_scan {text : String} {ts : List Token} (h : scan text = .ok ts) :
    ∃ ps, Pieces text.toList ps ∧ tokensOf ps = ts.dropLast.map unplaced :=
  pieces_of_scanFrom h (Nat.le_refl _)

end Token

end AdhocReport
