import AdhocReport.Proofs.Decimal.Bits
import Mathlib.Data.List.TakeWhile
set_option autoImplicit false

/-!
# Texts of numbers

The text of a number denotes its value, whichever layout it was written in: the digits without the
point, shifted by the exponent less the places after the point.  Hence an integer and a finite double
are each known from their texts, and the two kinds of text differ, since that of a double has a point
or an exponent.
-/

namespace AdhocReport.Decimal

/-! ## Integers -/

theorem ofDigitChars_toDigits (n : ℕ) : Nat.ofDigitChars 10 (Nat.toDigits 10 n) 0 = n :=
  Nat.ofDigitChars_toDigits (by decide) (by decide)

theorem isDigit_of_mem_toDigits {n : ℕ} {c : Char} (h : c ∈ Nat.toDigits 10 n) : c.isDigit = true :=
  Nat.isDigit_of_mem_toDigits (by decide) (by decide) h

theorem intText_toList (n : ℤ) : (intText n).toList =
    (if n < 0 then ['-'] else []) ++ Nat.toDigits 10 n.natAbs := by
  unfold intText natText
  split
  · simp only [String.toList_append, String.toList_ofList]
    rfl
  · rw [String.toList_ofList, List.nil_append]

/-- A text in front of which a sign may stand tells the sign and the rest, if the rest starts with a
digit. -/
theorem signed_inj {p q : Prop} [Decidable p] [Decidable q] {c d : Char} {cs ds : List Char}
    (hc : c.isDigit = true) (hd : d.isDigit = true)
    (h : (if p then ['-'] else []) ++ c :: cs = (if q then ['-'] else []) ++ d :: ds) :
    (p ↔ q) ∧ c :: cs = d :: ds := by
  have hminus : ∀ {b : Char}, b.isDigit = true → '-' ≠ b := by
    rintro b hdigit rfl
    cases hdigit
  by_cases hp : p <;> by_cases hq : q
  · simp only [hp, hq, if_true] at h
    exact ⟨by simp [hp, hq], (List.cons.inj h).2⟩
  · simp only [hp, hq, if_true, if_false] at h
    exact absurd (List.cons.inj h).1 (hminus hd)
  · simp only [hp, hq, if_true, if_false] at h
    exact absurd (List.cons.inj h).1.symm (hminus hc)
  · simp only [hp, hq, if_false] at h
    exact ⟨by simp [hp, hq], h⟩

theorem toDigits_cons (n : ℕ) : ∃ c cs, Nat.toDigits 10 n = c :: cs ∧ c.isDigit = true := by
  cases hdigits : Nat.toDigits 10 n with
  | nil => exact absurd hdigits Nat.toDigits_ne_nil
  | cons c cs => exact ⟨c, cs, rfl, isDigit_of_mem_toDigits (hdigits ▸ List.mem_cons_self)⟩

theorem intText_injective {m n : ℤ} (h : intText m = intText n) : m = n := by
  have htexts := congrArg String.toList h
  rw [intText_toList, intText_toList] at htexts
  obtain ⟨c, cs, hdigits, hc⟩ := toDigits_cons m.natAbs
  obtain ⟨d, ds, hdigits', hd⟩ := toDigits_cons n.natAbs
  rw [hdigits, hdigits'] at htexts
  obtain ⟨hsign, hrest⟩ := signed_inj hc hd htexts
  rw [← hdigits, ← hdigits'] at hrest
  have hsize : m.natAbs = n.natAbs := by
    rw [← ofDigitChars_toDigits m.natAbs, hrest, ofDigitChars_toDigits]
  omega

/-! ## The number that a text writes -/

/-- The number that an exponent writes. -/
def writtenExponent : List Char → ℤ
  | '-' :: ds => -(Nat.ofDigitChars 10 ds 0 : ℕ)
  | '+' :: ds => (Nat.ofDigitChars 10 ds 0 : ℕ)
  | _ => 0

/-- The number that an unsigned text writes. -/
def written (cs : List Char) : ℚ :=
  let mantissa := cs.takeWhile fun c => c != 'e'
  let places := ((mantissa.dropWhile fun c => c != '.').drop 1).length
  (Nat.ofDigitChars 10 (mantissa.filter fun c => c != '.') 0 : ℚ) *
    10 ^ (writtenExponent ((cs.dropWhile fun c => c != 'e').drop 1) - places)

/-- The characters of a number. -/
def IsNumeral (c : Char) : Prop := c.isDigit = true ∨ c = '.' ∨ c = 'e' ∨ c = '-' ∨ c = '+'

theorem ne_of_isDigit {c d : Char} (h : c.isDigit = true) (hother : d.isDigit = false) : (c != d) = true := by
  rw [bne_iff_ne]
  rintro rfl
  rw [h] at hother
  cases hother

/-- Digits with a point among them and no exponent. -/
theorem written_point {whole fraction : List Char} (hw : ∀ c ∈ whole, c.isDigit = true)
    (hf : ∀ c ∈ fraction, c.isDigit = true) :
    written (whole ++ '.' :: fraction) =
      (Nat.ofDigitChars 10 (whole ++ fraction) 0 : ℚ) * 10 ^ (-(fraction.length : ℤ)) := by
  have hnoMark : ∀ c ∈ whole ++ '.' :: fraction, (c != 'e') = true := by
    intro c hmember
    rcases List.mem_append.mp hmember with h | h
    · exact ne_of_isDigit (hw c h) rfl
    · rcases List.mem_cons.mp h with rfl | h
      · rfl
      · exact ne_of_isDigit (hf c h) rfl
  have hnoPoint : ∀ {cs : List Char}, (∀ c ∈ cs, c.isDigit = true) → ∀ c ∈ cs, (c != '.') = true :=
    fun h c hmember => ne_of_isDigit (h c hmember) rfl
  have hmantissa : (whole ++ '.' :: fraction).takeWhile (fun c => c != 'e') = whole ++ '.' :: fraction :=
    List.takeWhile_eq_self_iff.mpr hnoMark
  have hexponent : (whole ++ '.' :: fraction).dropWhile (fun c => c != 'e') = [] :=
    List.dropWhile_eq_nil_iff.mpr hnoMark
  have hplaces : (whole ++ '.' :: fraction).dropWhile (fun c => c != '.') = '.' :: fraction := by
    rw [List.dropWhile_append_of_pos (hnoPoint hw)]
    rfl
  simp only [written, hmantissa, hexponent, hplaces]
  have hdigits : (whole ++ '.' :: fraction).filter (fun c => c != '.') = whole ++ fraction := by
    rw [List.filter_append, List.filter_eq_self.mpr (hnoPoint hw)]
    congr 1
    rw [List.filter_cons_of_neg (by simp), List.filter_eq_self.mpr (hnoPoint hf)]
  rw [hdigits]
  simp [writtenExponent]

/-- Digits and nothing else. -/
theorem written_digits {ds : List Char} (h : ∀ c ∈ ds, c.isDigit = true) :
    written ds = (Nat.ofDigitChars 10 ds 0 : ℚ) := by
  have hnoMark : ∀ c ∈ ds, (c != 'e') = true := fun c hmember => ne_of_isDigit (h c hmember) rfl
  have hnoPoint : ∀ c ∈ ds, (c != '.') = true := fun c hmember => ne_of_isDigit (h c hmember) rfl
  simp only [written, List.takeWhile_eq_self_iff.mpr hnoMark, List.dropWhile_eq_nil_iff.mpr hnoMark,
    List.dropWhile_eq_nil_iff.mpr hnoPoint, List.filter_eq_self.mpr hnoPoint]
  simp [writtenExponent]

/-- An exponent after a mantissa shifts it. -/
theorem written_exponent {mantissa exponent : List Char} (h : ∀ c ∈ mantissa, (c != 'e') = true) :
    written (mantissa ++ 'e' :: exponent) = written mantissa * 10 ^ writtenExponent exponent := by
  have htaken : (mantissa ++ 'e' :: exponent).takeWhile (fun c => c != 'e') = mantissa := by
    rw [List.takeWhile_append_of_pos h, List.takeWhile_cons_of_neg (by simp), List.append_nil]
  have hdropped : (mantissa ++ 'e' :: exponent).dropWhile (fun c => c != 'e') = 'e' :: exponent := by
    rw [List.dropWhile_append_of_pos h, List.dropWhile_cons_of_neg (by simp)]
  simp only [written, htaken, hdropped, List.takeWhile_eq_self_iff.mpr h, List.dropWhile_eq_nil_iff.mpr h]
  have hnone : writtenExponent ([].drop 1) = 0 := rfl
  rw [hnone, List.drop_one, List.tail_cons, zpow_sub₀ (by norm_num), zpow_sub₀ (by norm_num)]
  ring

theorem ofDigitChars_padded (width n : ℕ) : Nat.ofDigitChars 10 (padded width n).toList 0 = n := by
  rw [padded, String.toList_ofList, Nat.ofDigitChars_append, Nat.ofDigitChars_replicate_zero,
    Nat.mul_zero, ofDigitChars_toDigits]

theorem padded_injective {width m n : ℕ} (h : padded width m = padded width n) : m = n := by
  rw [← ofDigitChars_padded width m, h, ofDigitChars_padded]

/-- Names that end in a number of one width tell the numbers apart. -/
theorem append_padded_injective {name : String} {width m n : ℕ} (h : name ++ padded width m = name ++ padded width n) :
    m = n := by
  have htexts := congrArg String.toList h
  rw [String.toList_append, String.toList_append, List.append_cancel_left_eq] at htexts
  exact padded_injective (String.toList_inj.mp htexts)

theorem isDigit_of_mem_zeros {n : ℕ} {c : Char} (h : c ∈ List.replicate n '0') : c.isDigit = true := by
  rw [List.eq_of_mem_replicate h]
  rfl

/-! ## Layouts -/

/-- Digits and the number that they write, with a point among them or without. -/
inductive Mantissa : Bool → List Char → ℚ → Prop
  | digits {ds : List Char} (hsome : ds ≠ []) (hall : ∀ c ∈ ds, c.isDigit = true) :
    Mantissa false ds (Nat.ofDigitChars 10 ds 0 : ℕ)
  | point {whole fraction : List Char} (hsome : whole ≠ []) (hw : ∀ c ∈ whole, c.isDigit = true)
    (hf : ∀ c ∈ fraction, c.isDigit = true) :
    Mantissa true (whole ++ '.' :: fraction)
      ((Nat.ofDigitChars 10 (whole ++ fraction) 0 : ℕ) * 10 ^ (-(fraction.length : ℤ)))

/-- The text of a number and the number: digits with a point among them, or digits and an exponent. -/
inductive Laid : List Char → ℚ → Prop
  | plain {cs : List Char} {q : ℚ} : Mantissa true cs q → Laid cs q
  | scaled {pointed : Bool} {cs exponent : List Char} {q : ℚ} : Mantissa pointed cs q →
    (∀ c ∈ exponent, IsNumeral c) → Laid (cs ++ 'e' :: exponent) (q * 10 ^ writtenExponent exponent)

theorem Mantissa.head {pointed : Bool} {cs : List Char} {q : ℚ} (h : Mantissa pointed cs q) :
    ∃ c rest, cs = c :: rest ∧ c.isDigit = true := by
  cases h with
  | digits hsome hall =>
    obtain ⟨c, rest, rfl⟩ := List.exists_cons_of_ne_nil hsome
    exact ⟨c, rest, rfl, hall c List.mem_cons_self⟩
  | point hsome hw hf =>
    obtain ⟨c, rest, rfl⟩ := List.exists_cons_of_ne_nil hsome
    exact ⟨c, _, rfl, hw c List.mem_cons_self⟩

theorem Mantissa.chars {pointed : Bool} {cs : List Char} {q : ℚ} (h : Mantissa pointed cs q) :
    ∀ c ∈ cs, c.isDigit = true ∨ c = '.' := by
  intro c hmember
  cases h with
  | digits hsome hall => exact .inl (hall c hmember)
  | point hsome hw hf =>
    rcases List.mem_append.mp hmember with h | h
    · exact .inl (hw c h)
    · rcases List.mem_cons.mp h with rfl | h
      · exact .inr rfl
      · exact .inl (hf c h)

theorem Mantissa.unmarked {pointed : Bool} {cs : List Char} {q : ℚ} (h : Mantissa pointed cs q) :
    ∀ c ∈ cs, (c != 'e') = true := by
  intro c hmember
  rcases h.chars c hmember with hdigit | rfl
  · exact ne_of_isDigit hdigit rfl
  · rfl

theorem Mantissa.written {pointed : Bool} {cs : List Char} {q : ℚ} (h : Mantissa pointed cs q) :
    written cs = q := by
  cases h with
  | digits hsome hall => exact written_digits hall
  | point hsome hw hf => exact written_point hw hf

/-- Whichever way a number is laid out, its text writes it. -/
theorem Laid.written {cs : List Char} {q : ℚ} (h : Laid cs q) : written cs = q := by
  cases h with
  | plain hmantissa => exact hmantissa.written
  | scaled hmantissa hexponent =>
    rw [written_exponent hmantissa.unmarked, hmantissa.written]

theorem Laid.head {cs : List Char} {q : ℚ} (h : Laid cs q) :
    ∃ c rest, cs = c :: rest ∧ c.isDigit = true := by
  cases h with
  | plain hmantissa => exact hmantissa.head
  | scaled hmantissa hexponent =>
    obtain ⟨c, rest, rfl, hfirst⟩ := hmantissa.head
    exact ⟨c, _, rfl, hfirst⟩

theorem Laid.numerals {cs : List Char} {q : ℚ} (h : Laid cs q) : ∀ c ∈ cs, IsNumeral c := by
  have hplain : ∀ {pointed ds r}, Mantissa pointed ds r → ∀ c ∈ ds, IsNumeral c :=
    fun hmantissa c hmember => (hmantissa.chars c hmember).imp_right .inl
  cases h with
  | plain hmantissa => exact hplain hmantissa
  | scaled hmantissa hexponent =>
    intro c hmember
    rcases List.mem_append.mp hmember with h | h
    · exact hplain hmantissa c h
    · rcases List.mem_cons.mp h with rfl | h
      · exact .inr (.inr (.inl rfl))
      · exact hexponent c h

theorem Laid.marked {cs : List Char} {q : ℚ} (h : Laid cs q) : ∃ c ∈ cs, c = '.' ∨ c = 'e' := by
  cases h with
  | plain hmantissa =>
    cases hmantissa with
    | point => exact ⟨'.', List.mem_append_right _ List.mem_cons_self, .inl rfl⟩
  | scaled => exact ⟨'e', List.mem_append_right _ List.mem_cons_self, .inr rfl⟩

section Render

variable {ds : List Char}

theorem laid_below (hdigits : ∀ c ∈ ds, c.isDigit = true) (n : ℕ) :
    Laid ("0.".toList ++ List.replicate n '0' ++ ds)
      ((Nat.ofDigitChars 10 ds 0 : ℕ) * 10 ^ (-(n + ds.length : ℤ))) := by
  have hfraction : ∀ c ∈ List.replicate n '0' ++ ds, c.isDigit = true := by
    intro c hmember
    rcases List.mem_append.mp hmember with h | h
    · exact isDigit_of_mem_zeros h
    · exact hdigits c h
  have hlaid := Laid.plain (Mantissa.point (List.cons_ne_nil '0' []) (by simp) hfraction)
  have hvalue : Nat.ofDigitChars 10 (['0'] ++ (List.replicate n '0' ++ ds)) 0 = Nat.ofDigitChars 10 ds 0 := by
    have hzero : Nat.ofDigitChars 10 ['0'] 0 = 0 := rfl
    rw [Nat.ofDigitChars_append, Nat.ofDigitChars_append, Nat.ofDigitChars_replicate_zero, hzero, Nat.mul_zero]
  rw [hvalue, List.length_append, List.length_replicate, Nat.cast_add] at hlaid
  rw [List.append_assoc]
  exact hlaid

theorem laid_above (hsome : ds ≠ []) (hdigits : ∀ c ∈ ds, c.isDigit = true) (n : ℕ) :
    Laid (ds ++ List.replicate n '0' ++ ".0".toList) ((Nat.ofDigitChars 10 ds 0 : ℕ) * 10 ^ (n : ℤ)) := by
  have hwhole : ∀ c ∈ ds ++ List.replicate n '0', c.isDigit = true := by
    intro c hmember
    rcases List.mem_append.mp hmember with h | h
    · exact hdigits c h
    · exact isDigit_of_mem_zeros h
  have hlaid := Laid.plain (@Mantissa.point _ ['0'] (by simp [hsome]) hwhole (by simp))
  have hvalue : Nat.ofDigitChars 10 (ds ++ List.replicate n '0' ++ ['0']) 0 =
      10 * (10 ^ n * Nat.ofDigitChars 10 ds 0) := by
    rw [Nat.ofDigitChars_append, Nat.ofDigitChars_append, Nat.ofDigitChars_replicate_zero]
    rfl
  have hshifted : ((10 * (10 ^ n * Nat.ofDigitChars 10 ds 0) : ℕ) : ℚ) * 10 ^ (-(1 : ℤ)) =
      (Nat.ofDigitChars 10 ds 0 : ℕ) * 10 ^ (n : ℤ) := by
    rw [zpow_natCast]
    push_cast
    simp only [zpow_neg, zpow_one]
    ring
  rw [hvalue, List.length_singleton, Nat.cast_one, hshifted] at hlaid
  exact hlaid

theorem laid_between (hdigits : ∀ c ∈ ds, c.isDigit = true) {n : ℕ} (hwithin : n < ds.length) :
    Laid (ds.take (n + 1) ++ '.' :: ds.drop (n + 1))
      ((Nat.ofDigitChars 10 ds 0 : ℕ) * 10 ^ (n + 1 - ds.length : ℤ)) := by
  have hsome : ds.take (n + 1) ≠ [] := by
    intro hnone
    have hsize := congrArg List.length hnone
    rw [List.length_take, List.length_nil] at hsize
    omega
  have hfraction : ∀ c ∈ ds.drop (n + 1), c.isDigit = true := fun c h => hdigits c (List.mem_of_mem_drop h)
  have hlaid := Laid.plain (Mantissa.point hsome (fun c h => hdigits c (List.mem_of_mem_take h)) hfraction)
  have hshift : (-((ds.length - (n + 1) : ℕ) : ℤ)) = n + 1 - ds.length := by omega
  rw [List.take_append_drop, List.length_drop, hshift] at hlaid
  exact hlaid

theorem writtenExponent_padded (width : ℕ) (e : ℤ) :
    ∃ exponent, ((if e < 0 then "e-" else "e+") ++ padded width e.natAbs).toList = 'e' :: exponent ∧
      (∀ c ∈ exponent, IsNumeral c) ∧ writtenExponent exponent = e := by
  have hchars : ∀ c ∈ (padded width e.natAbs).toList, IsNumeral c := by
    intro c h
    rw [padded, String.toList_ofList] at h
    rcases List.mem_append.mp h with h | h
    · exact .inl (isDigit_of_mem_zeros h)
    · exact .inl (isDigit_of_mem_toDigits h)
  have hsigned : ∀ sign : Char, IsNumeral sign → ∀ c ∈ sign :: (padded width e.natAbs).toList, IsNumeral c := by
    intro sign hfine c h
    rcases List.mem_cons.mp h with rfl | h
    · exact hfine
    · exact hchars c h
  by_cases hnegative : e < 0
  · refine ⟨_, ?_, hsigned '-' (.inr (.inr (.inr (.inl rfl)))), ?_⟩
    · rw [if_pos hnegative, String.toList_append]
      rfl
    · rw [writtenExponent, ofDigitChars_padded]
      omega
  · refine ⟨_, ?_, hsigned '+' (.inr (.inr (.inr (.inr rfl)))), ?_⟩
    · rw [if_neg hnegative, String.toList_append]
      rfl
    · rw [writtenExponent, ofDigitChars_padded]
      omega

/-- Digits of which the first has the exponent `e` are laid out as the number that they write there. -/
theorem laid_render (l : Layout) (hsome : ds ≠ []) (hdigits : ∀ c ∈ ds, c.isDigit = true)
    (hbare : l.pointed = false) (e : ℤ) :
    Laid (l.render ds e).toList ((Nat.ofDigitChars 10 ds 0 : ℕ) * 10 ^ (e + 1 - ds.length)) := by
  by_cases hplain : l.plainFrom ≤ e ∧ e < l.plainBelow
  · unfold Layout.render
    rw [if_pos hplain]
    by_cases hbelow : e < 0
    · rw [if_pos hbelow, String.toList_ofList]
      have hshift : e + 1 - ds.length = -(((-e).toNat - 1 : ℕ) + ds.length : ℤ) := by omega
      rw [hshift]
      exact laid_below hdigits _
    · rw [if_neg hbelow]
      by_cases hshort : ds.length ≤ e.toNat + 1
      · rw [if_pos hshort, String.toList_ofList]
        have hshift : e + 1 - ds.length = (e.toNat + 1 - ds.length : ℕ) := by omega
        rw [hshift]
        exact laid_above hsome hdigits _
      · rw [if_neg hshort, String.toList_ofList]
        have hshift : e + 1 - ds.length = e.toNat + 1 - ds.length := by omega
        rw [hshift]
        exact laid_between hdigits (by omega)
  · obtain ⟨exponent, htext, hchars, hvalue⟩ := writtenExponent_padded l.exponentWidth e
    unfold Layout.render
    rw [if_neg hplain, String.append_assoc, String.toList_append, htext, String.toList_ofList]
    cases ds with
    | nil => exact absurd rfl hsome
    | cons d tail =>
      cases tail with
      | nil =>
        have hlaid := Laid.scaled (Mantissa.digits hsome hdigits) hchars
        simp only [hbare, Bool.false_eq_true, if_false]
        have hshift : e + 1 - ([d].length : ℕ) = e := by simp
        rw [hvalue, ← hshift] at hlaid
        exact hlaid
      | cons d' tail =>
        have hlaid := Laid.scaled (Mantissa.point (List.cons_ne_nil d [])
          (fun c h => hdigits c (List.mem_singleton.mp h ▸ List.mem_cons_self))
          (fun c h => hdigits c (List.mem_cons_of_mem _ h))) hchars
        rw [hvalue, mul_assoc, ← zpow_add₀ (by norm_num)] at hlaid
        have hshift : e + 1 - ((d :: d' :: tail).length : ℕ) = -((d' :: tail).length : ℤ) + e := by
          simp only [List.length_cons]
          omega
        rw [hshift]
        exact hlaid

end Render

/-! ## Doubles -/

/-- The text of a finite double: its sign and a text of its magnitude. -/
theorem floatText_toList {x : Float} (hnumber : x.isNaN = false) (hfinite : x.isInf = false) :
    ∃ c rest, (floatText x).toList = (if isNegative x = true then ['-'] else []) ++ c :: rest ∧
      c.isDigit = true ∧ (∀ d ∈ c :: rest, IsNumeral d) ∧ (∃ d ∈ c :: rest, d = '.' ∨ d = 'e') ∧
      written (c :: rest) = (Binary.ofBits x.toBits).shortest.value := by
  have hdigits : ∀ c ∈ Nat.toDigits 10 (Binary.ofBits x.toBits).shortest.digits, c.isDigit = true :=
    fun c h => isDigit_of_mem_toDigits h
  have hsome : Nat.toDigits 10 (Binary.ofBits x.toBits).shortest.digits ≠ [] := Nat.toDigits_ne_nil
  simp only [floatText, hnumber, hfinite, Bool.false_eq_true, if_false]
  generalize (Binary.ofBits x.toBits).shortest = d at hdigits hsome ⊢
  generalize hplace : (if (d.digits == 0) = true then 0
    else d.exp + ((Nat.toDigits 10 d.digits).length : ℤ) - 1) = e
  have hlaid := laid_render .standard hsome hdigits rfl e
  obtain ⟨c, rest, htext, hfirst⟩ := hlaid.head
  rw [htext] at hlaid
  refine ⟨c, rest, ?_, hfirst, hlaid.numerals, hlaid.marked, ?_⟩
  · rw [String.toList_append, htext]
    split <;> rfl
  · rw [hlaid.written, ofDigitChars_toDigits, Digits.value]
    by_cases hzero : d.digits = 0
    · simp [hzero]
    · rw [if_neg (by simpa using hzero)] at hplace
      congr 2
      omega

/-- A finite double is known from its text. -/
theorem floatText_injective {x y : Float} (hnumber : x.isNaN = false) (hfinite : x.isInf = false)
    (hnumber' : y.isNaN = false) (hfinite' : y.isInf = false) (h : floatText x = floatText y) : x = y := by
  obtain ⟨c, rest, htext, hc, -, -, hvalue⟩ := floatText_toList hnumber hfinite
  obtain ⟨d, rest', htext', hd, -, -, hvalue'⟩ := floatText_toList hnumber' hfinite'
  rw [h, htext'] at htext
  obtain ⟨hsign, hsame⟩ := signed_inj hd hc htext
  rw [hsame, hvalue] at hvalue'
  have hbits := Binary.eq_of_shortest_value (ofBits_regular _) (ofBits_regular _) hvalue'
  exact eq_of_sign_and_rest (Bool.eq_iff_iff.mpr hsign.symm) (eq_of_ofBits hbits)

end AdhocReport.Decimal
