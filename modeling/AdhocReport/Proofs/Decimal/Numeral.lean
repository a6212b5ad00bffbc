import AdhocReport.Decimal.Numeral
import Mathlib.Data.List.Chain
import Mathlib.Data.List.TakeWhile
set_option autoImplicit false

/-!
# The spelling of numerals

What the scanner of numerals takes from the front of a text: digits with an optional point, at least one
digit, and an optional exponent of a mark, an optional sign and digits.  Nothing else is taken, and what
follows is left as it is.  So the spellings of numerals are the texts that are scanned as a whole.
-/

namespace AdhocReport.Decimal

open AdhocReport.Text

/-- The spellings of a sign; none is written for a plus sign. -/
inductive SignText : Bool → List Char → Prop
  | none : SignText false []
  | plus : SignText false ['+']
  | minus : SignText true ['-']

/-- The spellings of an exponent. -/
inductive ExponentText : Option (Bool × List Char) → List Char → Prop
  | none : ExponentText none []
  | some {mark : Char} {negative : Bool} {sign ds : List Char} :
      isExponentMark mark = true → SignText negative sign → ds ≠ [] → (∀ d ∈ ds, isDigit d = true) →
      ExponentText (some (negative, ds)) (mark :: (sign ++ ds))

/-- The digits and the point of a numeral. -/
def Numeral.mantissa (n : Numeral) : List Char := n.whole ++ (if n.point then ['.'] else []) ++ n.fraction

/-- The numeral is spelled by the characters. -/
structure Numeral.Spelled (n : Numeral) (cs : List Char) : Prop where
  whole : ∀ d ∈ n.whole, isDigit d = true
  fraction : ∀ d ∈ n.fraction, isDigit d = true
  digits : n.whole ++ n.fraction ≠ []
  point : n.point = false → n.fraction = []
  text : ∃ exponent, ExponentText n.exponent exponent ∧ cs = n.mantissa ++ exponent

theorem sign?_spelled (cs : List Char) : ∃ sign, SignText (sign? cs).1 sign ∧ cs = sign ++ (sign? cs).2 := by
  unfold sign?
  split
  · exact ⟨_, .plus, rfl⟩
  · exact ⟨_, .minus, rfl⟩
  · exact ⟨_, .none, rfl⟩

theorem spanDigits_append (cs : List Char) : (spanDigits cs).1 ++ (spanDigits cs).2 = cs :=
  List.takeWhile_append_dropWhile

theorem isDigit_of_mem_spanDigits {cs : List Char} {d : Char} (h : d ∈ (spanDigits cs).1) :
    isDigit d = true :=
  List.mem_takeWhile_imp h

/-- The signs of exponents are those of numerals. -/
theorem exponent?_cons (mark : Char) (rest : List Char) :
    exponent? (mark :: rest) =
      if isExponentMark mark then
        if (spanDigits (sign? rest).2).1.isEmpty then none
        else some (((sign? rest).1, (spanDigits (sign? rest).2).1), (spanDigits (sign? rest).2).2)
      else none := rfl

theorem exponent?_spelled {cs after : List Char} {e : Bool × List Char}
    (h : exponent? cs = some (e, after)) :
    ∃ text, ExponentText (some e) text ∧ cs = text ++ after := by
  cases cs with
  | nil => simp [exponent?] at h
  | cons mark rest =>
    rw [exponent?_cons] at h
    obtain ⟨sign, hsign, hrest⟩ := sign?_spelled rest
    split at h
    case isFalse => cases h
    case isTrue hmark =>
      split at h
      case isTrue => cases h
      case isFalse hdigits =>
        obtain ⟨rfl, rfl⟩ := Prod.mk.inj (Option.some.inj h)
        refine ⟨_, .some hmark hsign (by simpa using hdigits) fun d => isDigit_of_mem_spanDigits, ?_⟩
        rw [List.cons_append, List.append_assoc, spanDigits_append, ← hrest]

/-- The point and the fraction behind whole digits, and what follows them. -/
def pointed (whole rest : List Char) : Bool × List Char × List Char :=
  match rest with
  | '.' :: r =>
    if whole.isEmpty && (spanDigits r).1.isEmpty then (false, [], rest)
    else (true, (spanDigits r).1, (spanDigits r).2)
  | _ => (false, [], rest)

theorem Numeral.scan?_eq (cs : List Char) : Numeral.scan? cs =
    let (point, fraction, rest) := pointed (spanDigits cs).1 (spanDigits cs).2
    if (spanDigits cs).1.isEmpty && fraction.isEmpty then none
    else match exponent? rest with
      | some (e, after) => some (⟨(spanDigits cs).1, point, fraction, some e⟩, after)
      | none => some (⟨(spanDigits cs).1, point, fraction, none⟩, rest) := rfl

theorem pointed_spelled (whole cs : List Char) :
    (∀ d ∈ (pointed whole cs).2.1, isDigit d = true) ∧
      ((pointed whole cs).1 = false → (pointed whole cs).2.1 = []) ∧
      cs = (if (pointed whole cs).1 then ['.'] else []) ++ (pointed whole cs).2.1 ++ (pointed whole cs).2.2 := by
  unfold pointed
  split
  · split
    · exact ⟨by simp, fun _ => rfl, rfl⟩
    · exact ⟨fun d => isDigit_of_mem_spanDigits, by simp, by simp [spanDigits_append]⟩
  · exact ⟨by simp, fun _ => rfl, rfl⟩

theorem Numeral.scan?_spelled {cs after : List Char} {n : Numeral} (h : Numeral.scan? cs = some (n, after)) :
    ∃ text, n.Spelled text ∧ cs = text ++ after := by
  rw [Numeral.scan?_eq] at h
  obtain ⟨hfraction, hpoint, hrest⟩ := pointed_spelled (spanDigits cs).1 (spanDigits cs).2
  have hwhole : ∀ d ∈ (spanDigits cs).1, isDigit d = true := fun d => isDigit_of_mem_spanDigits
  have hcs := spanDigits_append cs
  generalize pointed (spanDigits cs).1 (spanDigits cs).2 = p at h hfraction hpoint hrest
  obtain ⟨point, fraction, rest⟩ := p
  simp only at h hfraction hpoint hrest
  split at h
  case isTrue => cases h
  case isFalse hdigits =>
    have hdigits : (spanDigits cs).1 ++ fraction ≠ [] := by simpa using hdigits
    split at h
    · next e rest' hexponent =>
      obtain ⟨rfl, rfl⟩ := Prod.mk.inj (Option.some.inj h)
      obtain ⟨exponent, htext, rfl⟩ := exponent?_spelled hexponent
      refine ⟨_, ⟨hwhole, hfraction, hdigits, hpoint, exponent, htext, rfl⟩, ?_⟩
      simp only [Numeral.mantissa, List.append_assoc] at hrest ⊢
      rw [← hrest, hcs]
    · obtain ⟨rfl, rfl⟩ := Prod.mk.inj (Option.some.inj h)
      refine ⟨_, ⟨hwhole, hfraction, hdigits, hpoint, [], .none, rfl⟩, ?_⟩
      simp only [Numeral.mantissa, List.append_nil, List.append_assoc] at hrest ⊢
      rw [← hrest, hcs]

/-! ## Characters of a spelling -/

/-- The characters that a signed numeral may have. -/
def SpellingChar (c : Char) : Prop :=
  isDigit c = true ∨ c = '.' ∨ c = '+' ∨ c = '-' ∨ isExponentMark c = true

theorem SignText.spellingChar {negative : Bool} {sign : List Char} (h : SignText negative sign) :
    ∀ c ∈ sign, SpellingChar c := by
  cases h <;> simp [SpellingChar]

theorem ExponentText.spellingChar {e : Option (Bool × List Char)} {cs : List Char} (h : ExponentText e cs) :
    ∀ c ∈ cs, SpellingChar c := by
  cases h with
  | none => simp
  | some hmark hsign _ hds =>
    intro c hc
    rw [List.mem_cons, List.mem_append] at hc
    rcases hc with rfl | hc | hc
    · simp [SpellingChar, hmark]
    · exact hsign.spellingChar c hc
    · exact .inl (hds c hc)

theorem Numeral.Spelled.mem_mantissa {n : Numeral} {cs : List Char} (h : n.Spelled cs) :
    ∀ c ∈ n.mantissa, isDigit c = true ∨ c = '.' := by
  intro c hc
  simp only [Numeral.mantissa, List.mem_append] at hc
  rcases hc with (hc | hc) | hc
  · exact .inl (h.whole c hc)
  · split at hc
    · exact .inr (List.mem_singleton.mp hc)
    · cases hc
  · exact .inl (h.fraction c hc)

theorem Numeral.Spelled.mantissa_ne_nil {n : Numeral} {cs : List Char} (h : n.Spelled cs) : n.mantissa ≠ [] := by
  intro hnil
  simp only [Numeral.mantissa, List.append_eq_nil_iff] at hnil
  exact h.digits (by rw [hnil.1.1, hnil.2]; rfl)

theorem Numeral.Spelled.ne_nil {n : Numeral} {cs : List Char} (h : n.Spelled cs) : cs ≠ [] := by
  obtain ⟨exponent, -, rfl⟩ := h.text
  exact List.append_ne_nil_of_left_ne_nil h.mantissa_ne_nil _

theorem Numeral.Spelled.spellingChar {n : Numeral} {cs : List Char} (h : n.Spelled cs) :
    ∀ c ∈ cs, SpellingChar c := by
  obtain ⟨exponent, hexponent, rfl⟩ := h.text
  intro c hc
  rcases List.mem_append.mp hc with hc | hc
  · exact (h.mem_mantissa c hc).imp_right .inl
  · exact hexponent.spellingChar c hc

theorem ne_minus_of_isDigit {d : Char} (h : isDigit d = true) : d ≠ '-' := by
  rintro rfl
  revert h
  decide

/-- Characters without a minus sign in front bring no two of them together. -/
theorem isChain_append_of_notMem {xs ys : List Char} (hxs : '-' ∉ xs)
    (hys : ys.IsChain fun a b => a = '-' → b ≠ '-') : (xs ++ ys).IsChain fun a b => a = '-' → b ≠ '-' := by
  induction xs with
  | nil => exact hys
  | cons x xs ih =>
    rw [List.mem_cons, not_or] at hxs
    exact List.isChain_cons.mpr ⟨fun y _ h => absurd h.symm hxs.1, ih hxs.2⟩

theorem SignText.isChain_append {negative : Bool} {sign ys : List Char} (h : SignText negative sign)
    (hhead : ∀ y ∈ ys.head?, y ≠ '-') (hys : ys.IsChain fun a b => a = '-' → b ≠ '-') :
    (sign ++ ys).IsChain fun a b => a = '-' → b ≠ '-' := by
  cases h with
  | none => exact hys
  | plus => exact isChain_append_of_notMem (by decide) hys
  | minus => exact List.isChain_cons.mpr ⟨fun y hy _ => hhead y hy, hys⟩

theorem ExponentText.isChain {e : Option (Bool × List Char)} {cs : List Char} (h : ExponentText e cs) :
    cs.IsChain fun a b => a = '-' → b ≠ '-' := by
  cases h with
  | none => exact .nil
  | @some mark _ sign ds hmark hsign hne hds =>
    have hmarks : '-' ∉ [mark] := by
      rw [List.mem_singleton]
      rintro rfl
      revert hmark
      decide
    have hdigits : '-' ∉ ds := fun h => ne_minus_of_isDigit (hds _ h) rfl
    have hchain : ds.IsChain fun a b => a = '-' → b ≠ '-' := by
      have happend := isChain_append_of_notMem hdigits .nil
      rwa [List.append_nil] at happend
    refine isChain_append_of_notMem hmarks (hsign.isChain_append (fun y hy => ?_) hchain)
    exact ne_minus_of_isDigit (hds y (List.mem_of_head? hy))

/-- No two minus signs meet in a signed numeral. -/
theorem Numeral.Spelled.isChain {n : Numeral} {cs sign : List Char} {negative : Bool} (h : n.Spelled cs)
    (hsign : SignText negative sign) : (sign ++ cs).IsChain fun a b => a = '-' → b ≠ '-' := by
  obtain ⟨exponent, hexponent, rfl⟩ := h.text
  have hmantissa : '-' ∉ n.mantissa := by
    intro hc
    rcases h.mem_mantissa _ hc with hdigit | hpoint
    · exact ne_minus_of_isDigit hdigit rfl
    · cases hpoint
  refine hsign.isChain_append (fun y hy => ?_) (isChain_append_of_notMem hmantissa hexponent.isChain)
  rw [List.head?_append_of_ne_nil _ h.mantissa_ne_nil] at hy
  rintro rfl
  exact hmantissa (List.mem_of_head? hy)

/-! ## What is spelled is scanned -/

theorem spanDigits_of_digits {ds rest : List Char} (hds : ∀ d ∈ ds, isDigit d = true)
    (hrest : ∀ c ∈ rest.head?, isDigit c = false) : spanDigits (ds ++ rest) = (ds, rest) := by
  have hstop : rest.takeWhile isDigit = [] ∧ rest.dropWhile isDigit = rest := by
    cases rest with
    | nil => exact ⟨rfl, rfl⟩
    | cons c rest => simp [hrest c rfl]
  rw [spanDigits, List.takeWhile_append_of_pos hds, List.dropWhile_append_of_pos hds, hstop.1, hstop.2,
    List.append_nil]

theorem isDigit_of_isExponentMark {c : Char} (h : isExponentMark c = true) : isDigit c = false := by
  simp only [isExponentMark, Bool.or_eq_true, beq_iff_eq] at h
  rcases h with rfl | rfl <;> decide

theorem sign?_of_spelled {negative : Bool} {sign cs : List Char} (h : SignText negative sign)
    (hcs : ∀ c ∈ cs.head?, c ≠ '+' ∧ c ≠ '-') : sign? (sign ++ cs) = (negative, cs) := by
  cases h with
  | plus => rfl
  | minus => rfl
  | none =>
    rw [List.nil_append]
    unfold sign?
    split
    · exact absurd rfl (hcs '+' rfl).1
    · exact absurd rfl (hcs '-' rfl).2
    · rfl

theorem not_sign_of_isDigit {c : Char} (h : isDigit c = true) : c ≠ '+' ∧ c ≠ '-' := by
  refine ⟨?_, ne_minus_of_isDigit h⟩
  rintro rfl
  revert h
  decide

theorem exponent?_of_spelled {e : Option (Bool × List Char)} {cs : List Char} (h : ExponentText e cs) :
    exponent? cs = e.map fun e => (e, []) := by
  cases h with
  | none => rfl
  | @some mark negative sign ds hmark hsign hne hds =>
    have hsigned : sign? (sign ++ ds) = (negative, ds) :=
      sign?_of_spelled hsign fun c hc => not_sign_of_isDigit (hds c (List.mem_of_head? hc))
    have hdigits : spanDigits ds = (ds, []) := by
      have happend : spanDigits (ds ++ []) = (ds, []) := spanDigits_of_digits hds fun c hc => nomatch hc
      rwa [List.append_nil] at happend
    rw [exponent?_cons, if_pos hmark, hsigned, hdigits, if_neg (by simpa using hne)]
    rfl

/-- Neither a digit nor a point comes first in an exponent. -/
theorem ExponentText.head {e : Option (Bool × List Char)} {cs : List Char} (h : ExponentText e cs) :
    ∀ c ∈ cs.head?, isDigit c = false ∧ c ≠ '.' := by
  cases h with
  | none => exact fun c hc => nomatch hc
  | @some mark _ _ _ hmark _ _ _ =>
    rintro c ⟨⟩
    refine ⟨isDigit_of_isExponentMark hmark, ?_⟩
    rintro rfl
    revert hmark
    decide

theorem pointed_of_spelled {n : Numeral} {exponent : List Char} (hn : n.whole ++ n.fraction ≠ [])
    (hfraction : ∀ d ∈ n.fraction, isDigit d = true) (hpoint : n.point = false → n.fraction = [])
    (hexponent : ∀ c ∈ exponent.head?, isDigit c = false ∧ c ≠ '.') :
    pointed n.whole ((if n.point then ['.'] else []) ++ n.fraction ++ exponent) =
      (n.point, n.fraction, exponent) := by
  cases hwritten : n.point with
  | true =>
    have hspan := spanDigits_of_digits hfraction fun c hc => (hexponent c hc).1
    simp only [if_true, List.cons_append, List.nil_append, pointed, hspan]
    rw [if_neg (by simpa using hn)]
  | false =>
    rw [hpoint hwritten]
    simp only [Bool.false_eq_true, if_false, List.nil_append]
    unfold pointed
    split
    · exact absurd rfl (hexponent '.' rfl).2
    · rfl

/-- A numeral that is spelled by all of the characters is scanned, and nothing is left of them. -/
theorem Numeral.Spelled.scan? {n : Numeral} {cs : List Char} (h : n.Spelled cs) :
    Numeral.scan? cs = some (n, []) := by
  obtain ⟨exponent, hexponent, rfl⟩ := h.text
  have hhead := hexponent.head
  have hrest : ∀ c ∈ ((if n.point then ['.'] else []) ++ n.fraction ++ exponent).head?, isDigit c = false := by
    cases hpoint : n.point with
    | true =>
      rintro c ⟨⟩
      decide
    | false =>
      rw [h.point hpoint]
      exact fun c hc => (hhead c hc).1
  have hspan : spanDigits (n.mantissa ++ exponent) =
      (n.whole, (if n.point then ['.'] else []) ++ n.fraction ++ exponent) := by
    simpa only [Numeral.mantissa, List.append_assoc] using spanDigits_of_digits h.whole hrest
  rw [Numeral.scan?_eq, hspan]
  simp only [pointed_of_spelled h.digits h.fraction h.point hhead, exponent?_of_spelled hexponent]
  rw [if_neg (by simpa using h.digits)]
  obtain ⟨whole, point, fraction, e⟩ := n
  cases hexponent <;> rfl

/-- A numeral begins with a digit, or with a point and a digit. -/
theorem Numeral.Spelled.begins {n : Numeral} {cs : List Char} (h : n.Spelled cs) :
    ∃ d tail, isDigit d = true ∧ (cs = d :: tail ∨ cs = '.' :: d :: tail) := by
  obtain ⟨exponent, -, rfl⟩ := h.text
  obtain ⟨whole, point, fraction, e⟩ := n
  cases whole with
  | cons d whole => exact ⟨d, _, h.whole d List.mem_cons_self, .inl rfl⟩
  | nil =>
    cases fraction with
    | nil => exact absurd rfl h.digits
    | cons d fraction =>
      cases point with
      | false => exact absurd (h.point rfl) (List.cons_ne_nil d fraction)
      | true => exact ⟨d, _, h.fraction d List.mem_cons_self, .inr rfl⟩

theorem spanDigits_ne_nil {d : Char} (hd : isDigit d = true) (cs : List Char) : (spanDigits (d :: cs)).1 ≠ [] := by
  rw [spanDigits, List.takeWhile_cons_of_pos hd]
  exact List.cons_ne_nil _ _

/-- Where a numeral begins, whatever follows it, one is scanned. -/
theorem Numeral.Spelled.scan?_ne_none {n : Numeral} {cs : List Char} (h : n.Spelled cs) (rest : List Char) :
    Numeral.scan? (cs ++ rest) ≠ none := by
  obtain ⟨d, tail, hd, rfl | rfl⟩ := h.begins
  · have hwhole := spanDigits_ne_nil hd (tail ++ rest)
    rw [List.cons_append, Numeral.scan?_eq]
    dsimp only
    rw [if_neg (by simp [hwhole])]
    split <;> exact Option.some_ne_none _
  · have hfraction := spanDigits_ne_nil hd (tail ++ rest)
    have hpoint : spanDigits ('.' :: d :: (tail ++ rest)) = ([], '.' :: d :: (tail ++ rest)) := by
      rw [spanDigits, List.takeWhile_cons_of_neg (by decide), List.dropWhile_cons_of_neg (by decide)]
    rw [List.cons_append, List.cons_append, Numeral.scan?_eq, hpoint, pointed, if_neg (by simp [hfraction])]
    dsimp only
    rw [if_neg (by simp [hfraction])]
    split <;> exact Option.some_ne_none _

/-- The first character of a numeral is a digit or a point. -/
theorem Numeral.Spelled.head {n : Numeral} {cs : List Char} (h : n.Spelled cs) :
    ∀ c ∈ cs.head?, c ≠ '+' ∧ c ≠ '-' := by
  obtain ⟨exponent, -, rfl⟩ := h.text
  intro c hc
  rw [List.head?_append_of_ne_nil _ h.mantissa_ne_nil] at hc
  rcases h.mem_mantissa c (List.mem_of_head? hc) with hdigit | rfl
  · exact not_sign_of_isDigit hdigit
  · decide

/-! ## The digits of a numeral -/

/-- The digits of a numeral, those of its exponent included. -/
def Numeral.allDigits (n : Numeral) : List Char := n.whole ++ n.fraction ++ (n.exponent.elim [] Prod.snd)

theorem SignText.not_isDigit {negative : Bool} {sign : List Char} (h : SignText negative sign) {c : Char}
    (hc : c ∈ sign) : ¬isDigit c = true := by
  cases h with
  | none => cases hc
  | plus | minus =>
    rw [List.mem_singleton.mp hc]
    decide

theorem ExponentText.mem_digits {e : Option (Bool × List Char)} {cs : List Char} (h : ExponentText e cs) (c : Char) :
    c ∈ e.elim [] Prod.snd ↔ c ∈ cs ∧ isDigit c = true := by
  cases h with
  | none => simp
  | @some mark negative sign ds hmark hsign _ hds =>
    rw [List.mem_cons, List.mem_append]
    constructor
    · exact fun hc => ⟨.inr (.inr hc), hds c hc⟩
    · rintro ⟨rfl | hc | hc, hdigit⟩
      · rw [isDigit_of_isExponentMark hmark] at hdigit
        cases hdigit
      · exact absurd hdigit (hsign.not_isDigit hc)
      · exact hc

theorem Numeral.Spelled.mem_digits {n : Numeral} {cs : List Char} (h : n.Spelled cs) (c : Char) :
    c ∈ n.whole ++ n.fraction ↔ c ∈ n.mantissa ∧ isDigit c = true := by
  rw [Numeral.mantissa, List.mem_append, List.mem_append, List.mem_append]
  constructor
  · rintro (hc | hc)
    · exact ⟨.inl (.inl hc), h.whole c hc⟩
    · exact ⟨.inr hc, h.fraction c hc⟩
  · rintro ⟨(hc | hc) | hc, hdigit⟩
    · exact .inl hc
    · split at hc
      · rw [List.mem_singleton.mp hc] at hdigit
        exact absurd hdigit (by decide)
      · cases hc
    · exact .inr hc

/-- The digits of a numeral are the digits among the characters that spell it, with or without a sign. -/
theorem Numeral.Spelled.mem_allDigits {n : Numeral} {cs sign : List Char} {negative : Bool} (h : n.Spelled cs)
    (hsign : SignText negative sign) (c : Char) : c ∈ n.allDigits ↔ c ∈ sign ++ cs ∧ isDigit c = true := by
  obtain ⟨exponent, hexponent, rfl⟩ := h.text
  rw [Numeral.allDigits, List.mem_append, h.mem_digits, hexponent.mem_digits, ← or_and_right, List.mem_append,
    List.mem_append]
  refine and_congr_left fun hdigit => ⟨.inr, ?_⟩
  rintro (hc | hc)
  · exact absurd hdigit (hsign.not_isDigit hc)
  · exact hc

end AdhocReport.Decimal
