import AdhocReport.Proofs.Expression.Cursor
import AdhocReport.Proofs.Expression.Mention
set_option autoImplicit false

/-!
# Expressions: scanning by positions is safe

The scanner by positions takes the same pieces as the scanner on the characters that are left.  It reads no
character behind the last one, and where it refuses the text, the position that it reports is in the text or
directly behind it.  Each of the tokens that it finds converts to a value.
-/

namespace AdhocReport

namespace Decimal

/-! ## Numerals are read whole

The readers of integers and of floats take a whole text, and know padding, signs, underscores and the names of
the infinities.  Nothing of this is in a number token: it is read as the numeral that it spells. -/

open AdhocReport.Text
open AdhocReport.Token (startsName_of_isDigit)
open AdhocReport.Expr (isBlank_of_isDigit)

variable {cs : List Char} {n : Numeral}

theorem dropPadding_of_solid (h : ∀ c ∈ cs, isBlank c = false) : dropPadding cs = cs := by
  have hfront {ds : List Char} (hds : ∀ c ∈ ds, isBlank c = false) : ds.dropWhile isPadding = ds := by
    cases ds with
    | nil => rfl
    | cons c ds => rw [List.dropWhile_cons_of_neg (by simp [isPadding, hds c List.mem_cons_self])]
  rw [dropPadding, hfront h, hfront fun c hc => h c (List.mem_reverse.mp hc), List.reverse_reverse]

theorem dropSeparators_of_notMem (afterDigit : Bool) (h : '_' ∉ cs) : dropSeparators afterDigit cs = some cs := by
  induction cs generalizing afterDigit with
  | nil => rfl
  | cons c cs ih =>
    rw [List.mem_cons, not_or] at h
    rw [dropSeparators, if_neg (by simpa using Ne.symm h.1), ih _ h.2]
    rfl

theorem SpellingChar.not_isBlank {c : Char} (h : SpellingChar c) : isBlank c = false := by
  rcases h with h | rfl | rfl | rfl | h
  · exact isBlank_of_isDigit h
  · decide
  · decide
  · decide
  · simp only [isExponentMark, Bool.or_eq_true, beq_iff_eq] at h
    rcases h with rfl | rfl <;> decide

theorem SpellingChar.ne_underscore {c : Char} (h : SpellingChar c) : c ≠ '_' := by
  rintro rfl
  rcases h with h | h | h | h | h
  · exact absurd h (by decide)
  · cases h
  · cases h
  · cases h
  · exact absurd h (by decide)

theorem toLower_of_not_isAlpha {c : Char} (h : c.isAlpha = false) : c.toLower = c := by
  have hletter : c.isAlpha = (c.isUpper || c.isLower) := rfl
  rw [hletter, Bool.or_eq_false_iff] at h
  exact dif_neg (of_decide_eq_false h.1)

/-- No letter is the first character of a numeral, in lower case or not. -/
theorem Numeral.Spelled.head_lowerAscii (h : n.Spelled cs) :
    ∀ c ∈ (lowerAscii cs).head?, c.isAlpha = false := by
  obtain ⟨exponent, -, rfl⟩ := h.text
  intro c hc
  rw [lowerAscii, List.head?_map, List.head?_append_of_ne_nil _ h.mantissa_ne_nil] at hc
  obtain ⟨d, hd, rfl⟩ := Option.map_eq_some_iff.mp hc
  have hplain : d.isAlpha = false := by
    rcases h.mem_mantissa d (List.mem_of_head? hd) with hdigit | rfl
    · have hname := startsName_of_isDigit hdigit
      rw [Token.startsName, Bool.or_eq_false_iff] at hname
      exact hname.1
    · decide
  rw [toLower_of_not_isAlpha hplain]
  exact hplain

theorem Numeral.Spelled.ne_word (h : n.Spelled cs) (c : Char) (rest : List Char) (hc : c.isAlpha = true) :
    (String.ofList (lowerAscii cs) == String.ofList (c :: rest)) = false := by
  rw [beq_eq_false_iff_ne]
  intro hword
  have hchars := congrArg String.toList hword
  rw [String.toList_ofList, String.toList_ofList] at hchars
  have hfirst := h.head_lowerAscii c (by rw [hchars]; rfl)
  rw [hc] at hfirst
  cases hfirst

/-- A text that spells a numeral is read as the float of the numeral. -/
theorem Numeral.Spelled.readFloat?_eq (h : n.Spelled cs) : readFloat? (String.ofList cs) = some n.toFloat := by
  have hpadding : dropPadding cs = cs := dropPadding_of_solid fun c hc => (h.spellingChar c hc).not_isBlank
  have hsign : sign? cs = (false, cs) := sign?_of_spelled .none h.head
  have hseparators : dropSeparators false cs = some cs :=
    dropSeparators_of_notMem false fun hc => (h.spellingChar _ hc).ne_underscore rfl
  have hinf : (String.ofList (lowerAscii cs) == "inf") = false := h.ne_word 'i' ['n', 'f'] rfl
  have hinfinity : (String.ofList (lowerAscii cs) == "infinity") = false :=
    h.ne_word 'i' ['n', 'f', 'i', 'n', 'i', 't', 'y'] rfl
  have hnan : (String.ofList (lowerAscii cs) == "nan") = false := h.ne_word 'n' ['a', 'n'] rfl
  simp only [readFloat?, String.toList_ofList, hpadding, hsign, hinf, hinfinity, hnan, hseparators,
    Bool.or_self, Bool.false_eq_true, if_false, Option.bind_eq_bind, Option.bind_some, h.scan?]
  rfl

/-- A text of digits is read as their number. -/
theorem readInt?_of_digits (hne : cs ≠ []) (h : ∀ c ∈ cs, isDigit c = true) :
    readInt? (String.ofList cs) = some (digitsValue cs : ℤ) := by
  have hpadding : dropPadding cs = cs := dropPadding_of_solid fun c hc => isBlank_of_isDigit (h c hc)
  have hsign : sign? cs = (false, cs) :=
    sign?_of_spelled .none fun c hc => not_sign_of_isDigit (h c (List.mem_of_head? hc))
  have hseparators : dropSeparators false cs = some cs :=
    dropSeparators_of_notMem false fun hc => SpellingChar.ne_underscore (.inl (h _ hc)) rfl
  have hdigits : (cs.isEmpty || !cs.all isDigit) = false := by
    rw [List.all_eq_true.mpr h]
    simpa using hne
  simp only [readInt?, String.toList_ofList, hpadding, hsign]
  rw [hseparators]
  simp only [Option.bind_eq_bind, Option.bind_some, hdigits, Bool.false_eq_true, if_false]
  rfl

/-- A point or an exponent mark is written in the numerals that are not whole, and in no others. -/
theorem Numeral.Spelled.any_mark (h : n.Spelled cs) :
    (cs.any fun c => c == '.' || isExponentMark c) = !n.isWhole := by
  obtain ⟨exponent, hexponent, rfl⟩ := h.text
  cases hpoint : n.point with
  | true => simp [Numeral.mantissa, Numeral.isWhole, hpoint]
  | false =>
    have hplain : (n.mantissa.any fun c => c == '.' || isExponentMark c) = false := by
      rw [List.any_eq_false]
      intro c hc
      simp only [Numeral.mantissa, hpoint, h.point hpoint, Bool.false_eq_true, if_false, List.append_nil] at hc
      have hdigit := h.whole c hc
      simp only [Bool.or_eq_true, beq_iff_eq, not_or]
      refine ⟨?_, fun hmark => ?_⟩
      · rintro rfl
        exact absurd hdigit (by decide)
      · rw [isDigit_of_isExponentMark hmark] at hdigit
        cases hdigit
    rw [List.any_append, hplain, Bool.false_or, Numeral.isWhole, hpoint]
    generalize n.exponent = written at hexponent
    cases hexponent with
    | none => rfl
    | some hmark _ _ _ => simp [hmark]

/-- A whole numeral is spelled by its digits alone. -/
theorem Numeral.Spelled.eq_whole (h : n.Spelled cs) (hwhole : n.isWhole = true) : cs = n.whole := by
  simp only [Numeral.isWhole, Bool.and_eq_true, Bool.not_eq_true', Option.isNone_iff_eq_none] at hwhole
  obtain ⟨exponent, hexponent, rfl⟩ := h.text
  rw [hwhole.2] at hexponent
  cases hexponent
  simp [Numeral.mantissa, hwhole.1, h.point hwhole.1]

end Decimal

namespace Cursor

open Outcome (bind_ok)

/-! ## Tokens that are safe to read -/

/-- The tokens of a text: the end marker is the last of them, and the others convert. -/
structure Readable (tokens : List Token) : Prop where
  marked : Token.Marked tokens
  number : ∀ t ∈ tokens, t.kind = .number → numberOf t = .ok t.numberValue
  reference : ∀ t ∈ tokens, t.kind = .reference → referenceOf t = .ok t.fieldRef

theorem numberOf_eq {n : Decimal.Numeral} {lexeme : List Char} (h : n.Spelled lexeme) (position : ℕ) :
    numberOf ⟨.number, lexeme, position⟩ = .ok (Token.numberValue ⟨.number, lexeme, position⟩) := by
  simp only [numberOf, Token.numberValue, Token.written, h.any_mark, h.scan?]
  cases hwhole : n.isWhole with
  | true =>
    have hlexeme := h.eq_whole hwhole
    rw [Decimal.readInt?_of_digits h.ne_nil (hlexeme ▸ h.whole), hlexeme]
    rfl
  | false =>
    rw [h.readFloat?_eq]
    rfl

/-- Only a numeral is a piece of the kind of numbers. -/
theorem numberOf_of_piece {lexeme rest : List Char} (h : Token.Piece (some .number) lexeme rest) (position : ℕ) :
    numberOf ⟨.number, lexeme, position⟩ = .ok (Token.numberValue ⟨.number, lexeme, position⟩) := by
  cases h with
  | number hspelled => exact numberOf_eq hspelled position
  | single hsingle => rcases (Token.mem_singles_of_singleKind? hsingle).2 with h | h | h | h <;> cases h

/-- A reference has a point in it, so it can be cut in two. -/
theorem referenceOf_of_piece {lexeme rest : List Char} (h : Token.Piece (some .reference) lexeme rest)
    (position : ℕ) :
    referenceOf ⟨.reference, lexeme, position⟩ = .ok (Token.fieldRef ⟨.reference, lexeme, position⟩) := by
  have hpoint : '.' ∈ lexeme := by
    cases h with
    | reference _ _ _ _ => simp
    | single hsingle => rcases (Token.mem_singles_of_singleKind? hsingle).2 with h | h | h | h <;> cases h
  rw [referenceOf, if_pos (List.contains_iff_mem.mpr hpoint)]
  rfl

/-- A piece before readable tokens is a readable token. -/
theorem Readable.cons {tokens : List Token} (h : Readable tokens) {kind : TokenKind} {lexeme rest : List Char}
    (hpiece : Token.Piece (some kind) lexeme rest) (hkind : kind ≠ .ending) (position : ℕ) :
    Readable (⟨kind, lexeme, position⟩ :: tokens) where
  marked := h.marked.cons hkind
  number := by
    refine List.forall_mem_cons.mpr ⟨?_, h.number⟩
    rintro rfl
    exact numberOf_of_piece hpiece position
  reference := by
    refine List.forall_mem_cons.mpr ⟨?_, h.reference⟩
    rintro rfl
    exact referenceOf_of_piece hpiece position

theorem readable_ending (position : ℕ) : Readable [⟨.ending, [], position⟩] where
  marked := Token.marked_ending position
  number := by simp
  reference := by simp

/-! ## The two scanners -/

/-- The two scanners come to the same: to at most `room` tokens besides the end marker, all of them placed in
the text, or to a syntax error that is placed in it. -/
inductive Scans (cs : List Char) (room : ℕ) : Except Halt (List Token) → Except SyntaxError (List Token) → Prop
  | done {tokens : List Token} : Readable tokens → (∀ t ∈ tokens, t.position ≤ cs.length) →
      tokens.length ≤ room + 1 → Scans cs room (.ok tokens) (.ok tokens)
  | refused {e : SyntaxError} : e.position ≤ cs.length → Scans cs room (.error (.refused e)) (.error e)

/-- A point behind a name is found as by the scanner on the characters that are left. -/
theorem dangles_eq {cs : List Char} {cut : Token.Cut} {after : ℕ} (hrest : cut.rest = cs.drop after) :
    dangles cs cut after = .ok cut.dangles := by
  rw [dangles, Token.Cut.dangles, hrest, List.head?_drop, at?]
  cases cut.kind == some .name with
  | false => rfl
  | true =>
    by_cases hafter : after < cs.length
    · simp only [hafter, decide_true, Bool.and_self, if_true, List.getElem?_eq_getElem hafter, Bool.true_and]
      rfl
    · simp [hafter]

/-- With fuel for each character that is left, the scanner by positions scans as the other does. -/
theorem scanFrom_scans (cs : List Char) (fuel fuel' position : ℕ) (hposition : position ≤ cs.length)
    (hfuel : cs.length < fuel + position) (hfuel' : cs.length ≤ fuel' + position) :
    Scans cs (cs.length - position) (scanFrom cs fuel position)
      (Token.scanFrom fuel' position (cs.drop position)) := by
  induction fuel generalizing fuel' position with
  | zero => omega
  | succ fuel ih =>
    rw [scanFrom]
    split
    case isFalse hend =>
      obtain rfl : position = cs.length := by omega
      rw [List.drop_length, Token.scanFrom]
      exact .done (readable_ending _) (by simp) (by simp)
    case isTrue hin =>
      obtain ⟨fuel', rfl⟩ := Nat.exists_eq_add_one.mpr (show 0 < fuel' by omega)
      rw [List.drop_eq_getElem_cons hin, Token.scanFrom, ← List.drop_eq_getElem_cons hin]
      cases hcut : Token.cut? (cs.drop position) with
      | none =>
        rw [at?, List.getElem?_eq_getElem hin]
        exact .refused hposition
      | some cut =>
        obtain ⟨hpiece, hcs⟩ := Token.piece_of_cut hcut
        have hpos := List.length_pos_iff.mpr hpiece.ne_nil
        have hlength := congrArg List.length hcs
        rw [List.length_drop, List.length_append] at hlength
        have hrest : cut.rest = cs.drop (position + cut.lexeme.length) := by
          rw [← List.drop_drop, hcs, List.drop_left]
        dsimp only
        rw [dangles_eq hrest, bind_ok]
        split
        case isTrue hdangles =>
          have hbehind : cut.rest ≠ [] := by
            rintro hnil
            simp [Token.Cut.dangles, hnil] at hdangles
          have := List.length_pos_iff.mpr hbehind
          exact .refused (by dsimp only; omega)
        case isFalse =>
          rw [hrest]
          have hscans := ih fuel' (position + cut.lexeme.length) (by omega) (by omega) (by omega)
          revert hscans
          generalize scanFrom cs fuel _ = x
          generalize Token.scanFrom fuel' _ _ = y
          rintro (⟨hread, hplaced, hcount⟩ | herror)
          · cases hkind : cut.kind with
            | none =>
              dsimp only
              exact .done hread hplaced (by omega)
            | some kind =>
              have hne : kind ≠ .ending := fun h => Token.cut?_kind_ne_ending hcut (by rw [hkind, h])
              refine .done (hread.cons (hkind ▸ hpiece) hne position)
                (List.forall_mem_cons.mpr ⟨hposition, hplaced⟩) ?_
              rw [List.length_cons]
              omega
          · exact .refused herror

/-- The tokens of a text are at most one more than its characters. -/
theorem scan_scans (s : String) {fuel : ℕ} (hfuel : s.length < fuel) :
    Scans s.toList s.length (scanFrom s.toList fuel 0) (Token.scan s) :=
  scanFrom_scans s.toList fuel s.toList.length 0 (Nat.zero_le _) hfuel le_rfl

end Cursor

end AdhocReport
