import AdhocReport.Expression.Mention
import AdhocReport.Proofs.Expression.Cut
set_option autoImplicit false

/-!
# Expressions: mentions and references

The scan for mentions knows nothing of tokens: it blanks out the strings and looks at every place for a name,
a point and a name.  In a text that parses it finds exactly the references.  A mention cannot begin inside a
piece, since the character before it would be part of a word or a point; it cannot begin at a function name or
a truth value, since only a number begins with a point there and a digit follows it; and at a reference it
begins, since a derivation never puts another word directly in front.
-/

namespace AdhocReport.Expr

open AdhocReport.Text
open AdhocReport.Token (startsName continuesName spanName spanText IsQuote Named Ends Piece Pieces tokensOf)

/-! ## Texts without their strings -/

theorem blankQuoted_fuel {fuel fuel' : Nat} {cs : List Char} (h : cs.length ≤ fuel) (h' : cs.length ≤ fuel') :
    blankQuoted fuel cs = blankQuoted fuel' cs := by
  induction fuel generalizing fuel' cs with
  | zero =>
    obtain rfl : cs = [] := List.length_eq_zero_iff.mp (Nat.le_zero.mp h)
    cases fuel' <;> rfl
  | succ fuel ih =>
    cases cs with
    | nil => cases fuel' <;> rfl
    | cons c tail =>
      obtain ⟨fuel', rfl⟩ : ∃ n, fuel' = n + 1 := ⟨fuel' - 1, by simp only [List.length_cons] at h'; omega⟩
      simp only [List.length_cons] at h h'
      rw [blankQuoted, blankQuoted]
      split
      · rename_i lexeme after hspan
        obtain ⟨hcs, quote, body, rfl, -⟩ := Token.spanText_eq_some hspan
        have hlength := congrArg List.length hcs
        simp only [List.length_cons, List.length_append] at hlength
        exact congrArg _ (ih (by omega) (by omega))
      · exact congrArg _ (ih (by omega) (by omega))

/-- The text with its strings blanked out. -/
def bare (cs : List Char) : List Char := blankQuoted cs.length cs

theorem bare_nil : bare [] = [] := rfl

theorem bare_text {cs lexeme rest : List Char} (h : spanText cs = some (lexeme, rest)) :
    bare cs = ' ' :: bare rest := by
  obtain ⟨rfl, quote, body, rfl, -⟩ := Token.spanText_eq_some h
  rw [bare, List.cons_append, List.length_cons, blankQuoted, ← List.cons_append, h]
  exact congrArg _ (blankQuoted_fuel (by simp) (Nat.le_refl _))

theorem bare_cons {c : Char} (h : ¬IsQuote c) (cs : List Char) : bare (c :: cs) = c :: bare cs := by
  rw [bare, List.length_cons, blankQuoted, Token.spanText_eq_none h]
  rfl

theorem bare_append {xs : List Char} (h : ∀ c ∈ xs, ¬IsQuote c) (cs : List Char) :
    bare (xs ++ cs) = xs ++ bare cs := by
  induction xs with
  | nil => rfl
  | cons c xs ih =>
    obtain ⟨hc, hxs⟩ := List.forall_mem_cons.mp h
    rw [List.cons_append, bare_cons hc, ih hxs, List.cons_append]

/-- Blanking out strings lets no name go on. -/
theorem ends_bare {cs : List Char} (h : Ends cs) : Ends (bare cs) := by
  cases cs with
  | nil => exact h
  | cons c tail =>
    cases hspan : spanText (c :: tail) with
    | some found =>
      rw [bare_text hspan]
      intro d hd
      rw [List.head?_cons, Option.mem_some_iff] at hd
      subst hd
      rfl
    | none =>
      have hbare : bare (c :: tail) = c :: bare tail := by
        rw [bare, List.length_cons, blankQuoted, hspan]
        rfl
      rw [hbare]
      exact h

/-! ## Mentions -/

theorem mention?_eq_some {cs model after : List Char} (h : mention? cs = some (model, after)) :
    after.length < cs.length := by
  unfold mention? at h
  obtain ⟨⟨name, rest⟩, hname, h⟩ := Option.bind_eq_some_iff.mp h
  dsimp only at h
  split at h
  · rename_i behind hpoint
    obtain ⟨⟨field, last⟩, hfield, h⟩ := Option.bind_eq_some_iff.mp h
    cases h
    obtain ⟨-, -, rfl⟩ := Token.spanName_eq_some_iff.mp hname
    obtain ⟨-, -, hbehind⟩ := Token.spanName_eq_some_iff.mp hfield
    have hdrop := congrArg List.length hpoint
    have hfirst := (List.dropWhile_suffix isBlank (l := rest)).length_le
    have hsecond := (List.dropWhile_suffix isBlank (l := behind)).length_le
    have hlast := congrArg List.length hbehind
    simp only [List.length_cons, List.length_append] at *
    omega
  · cases h

theorem mentionsFrom_fuel {fuel fuel' : Nat} {before : Option Char} {cs : List Char} (h : cs.length ≤ fuel)
    (h' : cs.length ≤ fuel') : mentionsFrom fuel before cs = mentionsFrom fuel' before cs := by
  induction fuel generalizing fuel' before cs with
  | zero =>
    obtain rfl : cs = [] := List.length_eq_zero_iff.mp (Nat.le_zero.mp h)
    cases fuel' <;> rfl
  | succ fuel ih =>
    cases cs with
    | nil => cases fuel' <;> rfl
    | cons c tail =>
      obtain ⟨fuel', rfl⟩ : ∃ n, fuel' = n + 1 := ⟨fuel' - 1, by simp only [List.length_cons] at h'; omega⟩
      simp only [List.length_cons] at h h'
      rw [mentionsFrom, mentionsFrom]
      split
      · rename_i model after hmention
        have hafter : after.length < (c :: tail).length := by
          split at hmention
          · cases hmention
          · exact mention?_eq_some hmention
        rw [List.length_cons] at hafter
        exact congrArg _ (ih (by omega) (by omega))
      · exact ih (by omega) (by omega)

/-- The models of the mentions in the characters that come after one. -/
def mentions (before : Option Char) (cs : List Char) : List (List Char) := mentionsFrom cs.length before cs

/-- A mention would begin inside a word or after a point. -/
def Inside (before : Option Char) : Prop := ∃ b ∈ before, isWord b = true ∨ b = '.'

theorem mentions_nil (before : Option Char) : mentions before [] = [] := by
  cases before <;> rfl

theorem inside_iff {before : Option Char} :
    (before.any fun b => isWord b || b == '.') = true ↔ Inside before := by
  cases before <;> simp [Inside]

theorem mentions_skip {before : Option Char} {c : Char} {cs : List Char}
    (h : Inside before ∨ mention? (c :: cs) = none) : mentions before (c :: cs) = mentions (some c) cs := by
  rw [mentions, List.length_cons, mentionsFrom]
  rcases h with h | h
  · rw [if_pos (inside_iff.mpr h)]
    rfl
  · rw [h, ite_self]
    rfl

theorem mentions_take {before : Option Char} {cs model after : List Char} (h : ¬Inside before)
    (hmention : mention? cs = some (model, after)) : mentions before cs = model :: mentions (some 'x') after := by
  have hlength := mention?_eq_some hmention
  cases cs with
  | nil => cases hmention
  | cons c tail =>
    rw [mentions, List.length_cons, mentionsFrom, if_neg (fun hinside => h (inside_iff.mp hinside)), hmention]
    rw [List.length_cons] at hlength
    exact congrArg _ (mentionsFrom_fuel (by omega) (Nat.le_refl _))

/-! ## Passing over a piece -/

theorem mention?_eq_none {c : Char} (h : startsName c = false) (cs : List Char) : mention? (c :: cs) = none := by
  rw [mention?, Token.spanName_eq_none h]
  rfl

/-- Where no name can start, the scan goes on with one of the characters behind it. -/
theorem mentions_plain {xs : List Char} (h : ∀ c ∈ xs, startsName c = false) (hne : xs ≠ [])
    (before : Option Char) (cs : List Char) : ∃ c ∈ xs, mentions before (xs ++ cs) = mentions (some c) cs := by
  induction xs generalizing before with
  | nil => exact absurd rfl hne
  | cons c xs ih =>
    obtain ⟨hc, hxs⟩ := List.forall_mem_cons.mp h
    have hskip : mentions before (c :: xs ++ cs) = mentions (some c) (xs ++ cs) :=
      mentions_skip (.inr (mention?_eq_none hc _))
    by_cases hlast : xs = []
    · subst hlast
      exact ⟨c, List.mem_cons_self, hskip⟩
    · obtain ⟨d, hd, hpass⟩ := ih hxs hlast (some c)
      exact ⟨d, List.mem_cons_of_mem _ hd, hskip.trans hpass⟩

/-- The rest of a word is passed over. -/
theorem mentions_word {xs : List Char} (h : ∀ c ∈ xs, isWord c = true) {before : Option Char}
    (hinside : Inside before) (cs : List Char) : ∃ last, mentions before (xs ++ cs) = mentions last cs := by
  induction xs generalizing before with
  | nil => exact ⟨before, rfl⟩
  | cons c xs ih =>
    obtain ⟨hc, hxs⟩ := List.forall_mem_cons.mp h
    obtain ⟨last, hpass⟩ := ih hxs ⟨c, rfl, .inl hc⟩
    exact ⟨last, (mentions_skip (.inl hinside)).trans hpass⟩

/-- An exponent mark stands behind a digit or a point, so no mention begins in a number. -/
theorem mentions_number {n : Decimal.Numeral} {lexeme : List Char} (h : n.Spelled lexeme) (before : Option Char)
    (cs : List Char) : ∃ last, mentions before (lexeme ++ cs) = mentions last cs := by
  have hplain : ∀ c ∈ n.mantissa, startsName c = false := by
    intro c hc
    rcases h.mem_mantissa c hc with hdigit | rfl
    · exact Token.startsName_of_isDigit hdigit
    · decide
  obtain ⟨exponent, hexponent, rfl⟩ := h.text
  rw [List.append_assoc]
  obtain ⟨c, hc, hpass⟩ := mentions_plain hplain h.mantissa_ne_nil before (exponent ++ cs)
  have hinside : Inside (some c) := ⟨c, rfl, (h.mem_mantissa c hc).imp_left isWord_of_isDigit⟩
  generalize n.exponent = e at hexponent
  cases hexponent with
  | none => exact ⟨some c, hpass⟩
  | @some mark negative sign ds hmark hsign hds hdigits =>
    have hrest : ∀ c ∈ sign ++ ds, startsName c = false := by
      rw [List.forall_mem_append]
      refine ⟨fun c hc => ?_, fun c hc => Token.startsName_of_isDigit (hdigits c hc)⟩
      cases hsign with
      | none => cases hc
      | plus => rw [List.mem_singleton.mp hc]; decide
      | minus => rw [List.mem_singleton.mp hc]; decide
    obtain ⟨last, -, hbehind⟩ := mentions_plain hrest (List.append_ne_nil_of_right_ne_nil _ hds) (some mark) cs
    exact ⟨some last, hpass.trans ((mentions_skip (.inl hinside)).trans hbehind)⟩

/-- No mention begins in a name that is none itself. -/
theorem mentions_name {name cs : List Char} (h : Named name) (hnone : mention? (name ++ cs) = none)
    (before : Option Char) : ∃ last, mentions before (name ++ cs) = mentions last cs := by
  obtain ⟨c, tail, rfl, hc, htail⟩ := h
  have hword : ∀ d ∈ tail, isWord d = true := fun d hd => Token.isWord_of_continuesName (htail d hd)
  obtain ⟨last, hpass⟩ := mentions_word hword
    ⟨c, rfl, .inl (Token.isWord_of_continuesName (Token.continuesName_of_startsName hc))⟩ cs
  exact ⟨last, (mentions_skip (.inr hnone)).trans hpass⟩

/-! ## Points -/

theorem isBlank_of_isDigit {c : Char} (h : isDigit c = true) : isBlank c = false :=
  Bool.eq_false_iff.mpr fun hblank =>
    Bool.noConfusion ((isWord_of_isDigit h).symm.trans (isWord_of_isBlank hblank))

/-- A text that begins with neither a quote nor a blank begins with the point itself. -/
theorem head_of_point {c : Char} {cs after : List Char} (hquote : ¬IsQuote c) (hblank : isBlank c = false)
    (h : (bare (c :: cs)).dropWhile isBlank = '.' :: after) : c = '.' ∧ after = bare cs := by
  rw [bare_cons hquote, List.dropWhile_cons_of_neg (by simp [hblank])] at h
  obtain ⟨rfl, rfl⟩ := List.cons.inj h
  exact ⟨rfl, rfl⟩

theorem point_of_startsName {c : Char} (h : startsName c = true) : isBlank c = false ∧ c ≠ '.' := by
  refine ⟨Token.isBlank_of_continuesName (Token.continuesName_of_startsName h), ?_⟩
  rintro rfl
  exact absurd h (by decide)

theorem Named.head_ne_point {name rest after : List Char} (h : Named name) :
    (bare (name ++ rest)).dropWhile isBlank ≠ '.' :: after := by
  obtain ⟨c, tail, rfl, hc, -⟩ := h
  obtain ⟨hblank, hpoint⟩ := point_of_startsName hc
  have hquote := Token.not_isQuote_of_continuesName (Token.continuesName_of_startsName hc)
  exact fun hbare => hpoint (head_of_point hquote hblank hbare).1

theorem digit_of_number {n : Decimal.Numeral} {lexeme rest after : List Char} (h : n.Spelled lexeme)
    (hbare : (bare (lexeme ++ rest)).dropWhile isBlank = '.' :: after) :
    ∃ d tail, after = d :: tail ∧ isDigit d = true := by
  obtain ⟨exponent, -, rfl⟩ := h.text
  cases hwhole : n.whole with
  | cons d ds =>
    -- the number begins with a digit, which is no point
    have hd := h.whole d (hwhole ▸ List.mem_cons_self)
    rw [Decimal.Numeral.mantissa, hwhole] at hbare
    obtain ⟨rfl, -⟩ := head_of_point (Token.not_isQuote_of_isDigit hd) (isBlank_of_isDigit hd) hbare
    exact absurd hd (by decide)
  | nil =>
    have hdigits := h.digits
    rw [hwhole, List.nil_append] at hdigits
    have hpoint : n.point = true := by
      rw [← Bool.not_eq_false]
      exact fun hnone => hdigits (h.point hnone)
    obtain ⟨d, ds, hfraction⟩ := List.exists_cons_of_ne_nil hdigits
    have hd := h.fraction d (hfraction ▸ List.mem_cons_self)
    rw [Decimal.Numeral.mantissa, hwhole, hpoint, if_pos rfl, hfraction] at hbare
    obtain ⟨-, rfl⟩ := head_of_point (by rintro (h | h) <;> cases h) (by decide) hbare
    exact ⟨d, _, bare_cons (Token.not_isQuote_of_isDigit hd) _, hd⟩

/-- Where a text goes on with a point, after blanks and strings, a digit follows the point. -/
theorem digit_of_point {cs : List Char} {ps : List (Option TokenKind × List Char)} (h : Pieces cs ps)
    {after : List Char} (hpoint : (bare cs).dropWhile isBlank = '.' :: after) :
    ∃ d tail, after = d :: tail ∧ isDigit d = true := by
  induction h with
  | nil => cases hpoint
  | @cons kind lexeme rest ps hpiece _ ih =>
    cases hpiece with
    | blanks hne hbs =>
      rw [bare_append fun b hb => Token.not_isQuote_of_isBlank (hbs b hb), List.dropWhile_append_of_pos hbs] at hpoint
      exact ih hpoint
    | text hspan =>
      rw [bare_text hspan] at hpoint
      exact ih hpoint
    | number hspelled => exact digit_of_number hspelled hpoint
    | name hname _ => exact absurd hpoint (Named.head_ne_point hname)
    | reference hmodel _ _ _ =>
      rw [List.append_assoc, List.append_assoc] at hpoint
      exact absurd hpoint (Named.head_ne_point hmodel)
    | single hkind =>
      obtain ⟨hmem, -⟩ := Token.mem_singles_of_singleKind? hkind
      obtain ⟨-, hblank, hne, -⟩ := Token.plain_of_mem_singles hmem
      exact absurd (head_of_point (Token.not_isQuote_of_mem_singles hmem) hblank hpoint).1 hne

/-! ## Mentions and references -/

/-- A name of its own is no mention, whatever pieces follow it. -/
theorem mention?_name {name rest : List Char} {ps : List (Option TokenKind × List Char)} (h : Named name)
    (hends : Ends rest) (hrest : Pieces rest ps) : mention? (name ++ bare rest) = none := by
  have hname : spanName (name ++ bare rest) = some (name, bare rest) :=
    Token.spanName_eq_some_iff.mpr ⟨h, ends_bare hends, rfl⟩
  rw [mention?, hname]
  simp only [Option.bind_eq_bind, Option.bind_some]
  split
  · rename_i after hpoint
    obtain ⟨d, tail, rfl, hd⟩ := digit_of_point hrest hpoint
    rw [List.dropWhile_cons_of_neg (by simp [isBlank_of_isDigit hd]),
      Token.spanName_eq_none (Token.startsName_of_isDigit hd)]
    rfl
  · rfl

theorem mention?_reference {model blanks field cs : List Char} (hmodel : Named model)
    (hblanks : ∀ b ∈ blanks, isBlank b = true) (hfield : Named field) (hends : Ends cs) :
    mention? (model ++ blanks ++ '.' :: field ++ cs) = some (model, cs) := by
  have hafter : Ends (blanks ++ '.' :: (field ++ cs)) := by
    cases blanks with
    | nil =>
      intro c hc
      rw [List.nil_append, List.head?_cons, Option.mem_some_iff] at hc
      subst hc
      rfl
    | cons b bs =>
      intro c hc
      rw [List.cons_append, List.head?_cons, Option.mem_some_iff] at hc
      subst hc
      exact Bool.eq_false_iff.mpr fun hname =>
        Bool.noConfusion ((hblanks b List.mem_cons_self).symm.trans (Token.isBlank_of_continuesName hname))
  have hname : spanName (model ++ (blanks ++ '.' :: (field ++ cs))) = some (model, blanks ++ '.' :: (field ++ cs)) :=
    Token.spanName_eq_some_iff.mpr ⟨hmodel, hafter, rfl⟩
  have hpoint : (blanks ++ '.' :: (field ++ cs)).dropWhile isBlank = '.' :: (field ++ cs) := by
    rw [List.dropWhile_append_of_pos hblanks, List.dropWhile_cons_of_neg (by decide)]
  have hsolid : (field ++ cs).dropWhile isBlank = field ++ cs := by
    obtain ⟨c, tail, rfl, hc, -⟩ := hfield
    exact List.dropWhile_cons_of_neg (by simp [(point_of_startsName hc).1])
  have hsecond : spanName (field ++ cs) = some (field, cs) := Token.spanName_eq_some_iff.mpr ⟨hfield, hends, rfl⟩
  rw [List.append_assoc, List.append_assoc, List.cons_append, mention?, hname]
  simp only [Option.bind_eq_bind, Option.bind_some, hpoint, hsolid, hsecond]
  rfl

theorem not_inside {c : Char} (hword : isWord c = false) (hpoint : c ≠ '.') : ¬Inside (some c) := by
  rintro ⟨d, hd, h⟩
  cases Option.mem_some_iff.mp hd
  rcases h with h | h
  · exact Bool.noConfusion (hword.symm.trans h)
  · exact hpoint h

theorem plain_of_isBlank {c : Char} (h : isBlank c = true) : startsName c = false ∧ ¬Inside (some c) := by
  have hword := isWord_of_isBlank h
  refine ⟨?_, not_inside hword (by rintro rfl; exact absurd h (by decide))⟩
  refine Bool.eq_false_iff.mpr fun hname => ?_
  exact Bool.noConfusion
    (hword.symm.trans (Token.isWord_of_continuesName (Token.continuesName_of_startsName hname)))

/-- The mentions in the pieces of a text are its references, as long as no word runs into a reference: a word
before the first piece, or a word token directly before another one. -/
theorem mentions_of_pieces {cs : List Char} {ps : List (Option TokenKind × List Char)} (h : Pieces cs ps)
    (hseparated : Token.Separated (tokensOf ps)) (before : Option Char)
    (hstart : Inside before → ∀ t ∈ (tokensOf ps).head?, ¬Token.IsWordKind t.kind) :
    (mentions before (bare cs)).map String.ofList = (Token.fields (tokensOf ps)).map (·.model) := by
  induction h generalizing before with
  | nil => rw [bare_nil, mentions_nil]; rfl
  | @cons kind lexeme rest ps hpiece hrest ih =>
    have hquote := hpiece.no_quote
    cases hpiece with
    | blanks hne hbs =>
      have hplain := fun b hb => plain_of_isBlank (hbs b hb)
      rw [bare_append (hquote (by simp))]
      obtain ⟨b, hb, hpass⟩ := mentions_plain (fun b hb => (hplain b hb).1) hne before (bare rest)
      rw [hpass]
      exact ih hseparated (some b) fun hinside => absurd hinside (hplain b hb).2
    | text hspan =>
      obtain ⟨hname, houtside⟩ := @plain_of_isBlank ' ' (by decide)
      rw [Token.tokensOf_some] at hseparated
      rw [bare_text hspan, mentions_skip (.inr (mention?_eq_none hname _)), Token.tokensOf_some,
        Token.fields_cons (by simp)]
      exact ih hseparated.tail _ fun hinside => absurd hinside houtside
    | @single c kind _ hkind =>
      obtain ⟨hmem, hkinds⟩ := Token.mem_singles_of_singleKind? hkind
      obtain ⟨hname, -, hpoint, hword⟩ := Token.plain_of_mem_singles hmem
      have hother : kind ≠ .reference := by rintro rfl; simp at hkinds
      have hstring : kind ≠ .text := by rintro rfl; simp at hkinds
      rw [Token.tokensOf_some] at hseparated
      rw [bare_append (hquote (by simpa using hstring)), List.singleton_append,
        mentions_skip (.inr (mention?_eq_none hname _)), Token.tokensOf_some, Token.fields_cons (by simpa using hother)]
      exact ih hseparated.tail _ fun hinside => absurd hinside (not_inside hword hpoint)
    | number hspelled =>
      obtain ⟨last, hpass⟩ := mentions_number hspelled before (bare rest)
      rw [Token.tokensOf_some] at hseparated
      rw [bare_append (hquote (by simp)), hpass, Token.tokensOf_some, Token.fields_cons (by simp)]
      exact ih hseparated.tail last fun _ => hseparated.behind_word (.inr (.inl rfl))
    | name hname hends =>
      obtain ⟨last, hpass⟩ := mentions_name hname (mention?_name hname hends hrest) before
      rw [Token.tokensOf_some] at hseparated
      rw [bare_append (hquote (by simp)), hpass, Token.tokensOf_some, Token.fields_cons (by simp)]
      exact ih hseparated.tail last fun _ => hseparated.behind_word (.inr (.inr rfl))
    | @reference model blanks field _ hmodel hblanks hfield hends =>
      have hfree : ¬Inside before := fun hinside => hstart hinside _ rfl (.inl rfl)
      rw [Token.tokensOf_some] at hseparated
      rw [bare_append (hquote (by simp)),
        mentions_take hfree (mention?_reference hmodel hblanks hfield (ends_bare hends)),
        Token.tokensOf_some, Token.fields_reference rfl, Token.fieldRef_of_reference 0 hmodel.isName hblanks,
        List.map_cons, List.map_cons]
      exact congrArg _ (ih hseparated.tail _ fun _ => hseparated.behind_word (.inl rfl))

/-! ## The references of a text that parses -/

/-- For a text that parses, the scan for mentions and the tree agree: the mentioned models are those of the
tree, and the columns of the tree from left to right are the references among the tokens, in their order. -/
theorem mentions_of_parse {text : String} {e : Expr} (h : parse (some text) = .ok e) :
    mentionedModels text = e.models ∧
      ∃ ts, Token.scan text = .ok ts ∧
        e.columns = (ts.filter fun t => t.kind == .reference).map Token.fieldRef := by
  obtain ⟨ts, hts⟩ := scan_of_parse h
  have hderives := (parse_eq_ok_iff hts).mp h
  have hcolumns : e.columns = Token.fields ts.dropLast := hderives.columns_eq
  refine ⟨?_, ts, hts, ?_⟩
  · obtain ⟨ps, hps, hsame⟩ := Token.pieces_of_scan hts
    have hseparated : Token.Separated (tokensOf ps) := by
      rw [hsame]
      exact hderives.separated.unplaced
    have hmentions := mentions_of_pieces hps hseparated none fun hinside => by
      obtain ⟨b, hb, -⟩ := hinside
      cases hb
    rw [hsame, Token.fields_unplaced, ← hcolumns] at hmentions
    exact congrArg Collection.sortedSet hmentions
  · obtain ⟨body, eof, rfl, heof, -⟩ := Token.scan_marked hts
    rw [List.dropLast_concat] at hcolumns
    rw [hcolumns, ← Token.fields, Token.fields_append, Token.fields_cons (by simp [heof]), Token.fields_nil,
      List.append_nil]

/-- Points in a string and in numbers, and the names of functions, are no references; blanks may stand before
the point of one. -/
theorem mentions_of_parse_quoted :
    let text := "abs(orders .total) + 1.5 * 1.e5 - coalesce('x.y \\' z.w', users.age)"
    ∃ e, parse (some text) = .ok e ∧ mentionedModels text = ["orders", "users"] ∧
      e.columns = [⟨"orders", "total"⟩, ⟨"users", "age"⟩] := by
  have haccepted : (parse (some "abs(orders .total) + 1.5 * 1.e5 - coalesce('x.y \\' z.w', users.age)")).toBool =
      true := by
    decide +kernel
  have hfields : (Token.scan "abs(orders .total) + 1.5 * 1.e5 - coalesce('x.y \\' z.w', users.age)").map
      Token.fields = .ok [⟨"orders", "total"⟩, ⟨"users", "age"⟩] := by
    decide +kernel
  intro text
  cases h : parse (some text) with
  | error fault =>
    rw [h] at haccepted
    cases haccepted
  | ok e =>
    obtain ⟨hmodels, ts, hscanned, hcolumns⟩ := mentions_of_parse h
    rw [hscanned] at hfields
    have hnamed : e.columns = [⟨"orders", "total"⟩, ⟨"users", "age"⟩] :=
      hcolumns.trans (Except.ok.inj hfields)
    refine ⟨e, rfl, ?_, hnamed⟩
    rw [hmodels, Expr.models, hnamed]
    rfl

end AdhocReport.Expr
