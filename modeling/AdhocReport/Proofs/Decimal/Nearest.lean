import AdhocReport.Decimal.Fixed
import AdhocReport.Proofs.Decimal.Double
set_option autoImplicit false

/-!
# Nearest doubles

The interval of a double reaches half of the way to its neighbours.  So a number has no double nearer than the
one whose interval it lies in, and of two that are equally near the one with the even mantissa.  An integer has
an integer as its nearest double, and is that integer if any double is.
-/

namespace AdhocReport.Decimal

open Float.Model

namespace Binary

variable {b c : Binary} {v : ℚ}

/-! ## Neighbours -/

theorem two_mul_zpow_le {q r : ℤ} (h : q < r) : 2 * (2 : ℚ) ^ q ≤ 2 ^ r := by
  rw [← zpow_one_add₀ (by norm_num)]
  exact zpow_le_zpow_right₀ (by norm_num) (by omega)

/-- A magnitude of a higher exponent is at least one step greater. -/
theorem step_le_of_exponent_lt (hb : b.Regular) (hc : c.Regular) (h : b.q < c.q) :
    (b.m + 1) * (2 : ℚ) ^ b.q ≤ 2 ^ 52 * 2 ^ c.q ∧ 2 ^ 52 ≤ c.m := by
  have hmantissa := hb.mantissa
  have hbelow : (b.m : ℚ) + 1 ≤ 2 ^ 52 * 2 := by exact_mod_cast (by omega : b.m + 1 ≤ 2 ^ 52 * 2)
  refine ⟨?_, hc.normal (hb.exponent.trans_lt h)⟩
  calc (b.m + 1) * (2 : ℚ) ^ b.q ≤ 2 ^ 52 * 2 * 2 ^ b.q := mul_le_mul_of_nonneg_right hbelow (by positivity)
    _ = 2 ^ 52 * (2 * 2 ^ b.q) := mul_assoc _ _ _
    _ ≤ 2 ^ 52 * 2 ^ c.q := mul_le_mul_of_nonneg_left (two_mul_zpow_le h) (by norm_num)

theorem value_lt_step : b.value < (b.m + 1) * 2 ^ b.q :=
  mul_lt_mul_of_pos_right (lt_add_one _) (by positivity)

/-- A greater magnitude has a greater mantissa or a higher exponent. -/
theorem lt_cases (hb : b.Regular) (hc : c.Regular) (h : b.value < c.value) :
    (b.q = c.q ∧ b.m + 1 ≤ c.m) ∨ b.q < c.q := by
  rcases lt_trichotomy b.q c.q with hless | hsame | hgreater
  · exact .inr hless
  · refine .inl ⟨hsame, ?_⟩
    unfold value at h
    rw [hsame] at h
    exact_mod_cast lt_of_mul_lt_mul_right h (by positivity)
  · obtain ⟨hstep, hnormal⟩ := step_le_of_exponent_lt hc hb hgreater
    have habove : (2 ^ 52 : ℚ) ≤ b.m := by exact_mod_cast hnormal
    have hle : c.value ≤ b.value := by
      calc c.value ≤ 2 ^ 52 * 2 ^ b.q := value_lt_step.le.trans hstep
        _ ≤ b.value := mul_le_mul_of_nonneg_right habove (by positivity)
    exact absurd h hle.not_gt

theorem value_eq_quarters (b : Binary) : b.value = 4 * b.m * 2 ^ (b.q - 2) := mul_zpow_eq b.m b.q

/-- The interval of a magnitude ends at most half of the way to a greater one. -/
theorem two_mul_high_le (hb : b.Regular) (hc : c.Regular) (h : b.value < c.value) :
    2 * b.high ≤ b.value + c.value := by
  have hstep : (b.m + 1) * (2 : ℚ) ^ b.q ≤ c.value := by
    rcases lt_cases hb hc h with ⟨hq, hm⟩ | hq
    · rw [hq]
      exact mul_le_mul_of_nonneg_right (by exact_mod_cast hm) (by positivity)
    · obtain ⟨hstep, hnormal⟩ := step_le_of_exponent_lt hb hc hq
      exact hstep.trans (mul_le_mul_of_nonneg_right (by exact_mod_cast hnormal) (by positivity))
  have hhigh : 2 * b.high = b.value + (b.m + 1) * 2 ^ b.q := by
    rw [value_eq_quarters, mul_zpow_eq ((b.m : ℚ) + 1), high]
    push_cast
    ring
  rw [hhigh]
  exact add_le_add_right hstep _

/-- The interval of a magnitude starts at least half of the way from a smaller one. -/
theorem add_le_two_mul_low (hb : b.Regular) (hc : c.Regular) (h : b.value < c.value) :
    b.value + c.value ≤ 2 * c.low := by
  cases hgap : c.narrowBelow with
  | true =>
    have hnormal : -1074 < c.q := by
      refine lt_of_le_of_ne hc.exponent fun hleast => ?_
      rw [hc.least hleast.symm] at hgap
      cases hgap
    have hbottom : c.m = 2 ^ 52 := (hc.narrow hnormal).mp hgap
    have hlow : 2 * c.low = c.value + (2 ^ 53 - 1) * (2 * 2 ^ (c.q - 2)) := by
      rw [value_eq_quarters, low, if_pos hgap, hbottom]
      norm_num
      ring
    rw [hlow, add_comm]
    refine add_le_add_right ?_ _
    rcases lt_cases hb hc h with ⟨hq, hm⟩ | hq
    · have := hb.normal (hq ▸ hnormal)
      omega
    · have htop : (b.m : ℚ) ≤ 2 ^ 53 - 1 := by
        have hmantissa := hb.mantissa
        have hle : (b.m : ℚ) + 1 ≤ 2 ^ 53 := by exact_mod_cast hmantissa
        linarith
      have hscale : (2 : ℚ) ^ b.q ≤ 2 * 2 ^ (c.q - 2) := by
        rw [← zpow_one_add₀ (by norm_num)]
        exact zpow_le_zpow_right₀ (by norm_num) (by omega)
      exact mul_le_mul htop hscale (by positivity) (by norm_num)
  | false =>
    have hpos : 0 < c.m := by
      rcases lt_cases hb hc h with ⟨-, hm⟩ | hq
      · omega
      · exact (Nat.two_pow_pos 52).trans_le (step_le_of_exponent_lt hb hc hq).2
    have hlow : 2 * c.low = c.value + (c.m - 1) * 2 ^ c.q := by
      rw [value_eq_quarters, mul_zpow_eq ((c.m : ℚ) - 1), low, if_neg (by simp [hgap]), Nat.cast_sub (by omega)]
      push_cast
      ring
    rw [hlow, add_comm]
    refine add_le_add_right ?_ _
    rcases lt_cases hb hc h with ⟨hq, hm⟩ | hq
    · have hle : (b.m : ℚ) + 1 ≤ c.m := by exact_mod_cast hm
      rw [value, hq]
      exact mul_le_mul_of_nonneg_right (by linarith) (by positivity)
    · obtain ⟨hstep, hnormal⟩ := step_le_of_exponent_lt hb hc hq
      have hne : c.m ≠ 2 ^ 52 := by
        intro hbottom
        rw [(hc.narrow (hb.exponent.trans_lt hq)).mpr hbottom] at hgap
        cases hgap
      have hle : (2 : ℚ) ^ 52 + 1 ≤ c.m := by exact_mod_cast (by omega : 2 ^ 52 + 1 ≤ c.m)
      calc b.value ≤ 2 ^ 52 * 2 ^ c.q := value_lt_step.le.trans hstep
        _ ≤ (c.m - 1) * 2 ^ c.q := mul_le_mul_of_nonneg_right (by linarith) (by positivity)

/-! ## Distances -/

/-- No magnitude is nearer to a number than the one whose interval it lies in; if another is as near, the
mantissa is even. -/
theorem Within.nearest (h : b.Within v) (hb : b.Regular) (hc : c.Regular) :
    |b.value - v| ≤ |c.value - v| ∧ (|b.value - v| = |c.value - v| → c.value ≠ b.value → b.m % 2 = 0) := by
  obtain ⟨hlow, hhigh⟩ := within_le h
  rcases lt_trichotomy b.value c.value with hless | hsame | hgreater
  · have hhalf := two_mul_high_le hb hc hless
    rw [abs_of_nonneg (by linarith : 0 ≤ c.value - v)]
    refine ⟨abs_le.mpr ⟨by linarith, by linarith⟩, fun htie _ => ?_⟩
    rcases h.2 with hinside | ⟨heven, -⟩
    · have hlt : |b.value - v| < c.value - v := abs_lt.mpr ⟨by linarith, by linarith⟩
      exact absurd htie hlt.ne
    · exact heven
  · rw [hsame]
    exact ⟨le_rfl, fun _ hne => absurd rfl hne⟩
  · have hhalf := add_le_two_mul_low hc hb hgreater
    rw [abs_of_nonpos (by linarith : c.value - v ≤ 0)]
    refine ⟨abs_le.mpr ⟨by linarith, by linarith⟩, fun htie _ => ?_⟩
    rcases h.1 with hinside | ⟨heven, -⟩
    · have hlt : |b.value - v| < -(c.value - v) := abs_lt.mpr ⟨by linarith, by linarith⟩
      exact absurd htie hlt.ne
    · exact heven

end Binary

/-! ## Signed values -/

/-- A number with a sign put before it. -/
def withSign : UnpackedFloat.Sign → ℚ → ℚ
  | .positive, v => v
  | .negative, v => -v

/-- The value of a double. -/
def toRat (x : Float) : ℚ := withSign (signOf x) (magnitudeOf x).value

/-- The double is nearest to the number; if another one is as near, its mantissa is even. -/
structure Nearest (v : ℚ) (x : Float) : Prop where
  isFinite : IsFinite x
  nearest : ∀ y, IsFinite y → |toRat x - v| ≤ |toRat y - v|
  even : ∀ y, IsFinite y → toRat y ≠ toRat x → |toRat x - v| = |toRat y - v| → (magnitudeOf x).m % 2 = 0

theorem abs_withSign_sub (s : UnpackedFloat.Sign) (a v : ℚ) : |withSign s a - withSign s v| = |a - v| := by
  cases s with
  | positive => rfl
  | negative =>
    rw [withSign, withSign, neg_sub_neg]
    exact abs_sub_comm v a

theorem abs_withSign_sub_of_ne {s t : UnpackedFloat.Sign} {a v : ℚ} (ha : 0 ≤ a) (hv : 0 ≤ v) (h : t ≠ s) :
    |withSign t a - withSign s v| = a + v := by
  cases s <;> cases t <;> simp only [withSign]
  · exact absurd rfl h
  · rw [sub_neg_eq_add, abs_of_nonneg (add_nonneg ha hv)]
  · rw [abs_of_nonpos (by linarith : -a - v ≤ 0)]
    ring
  · exact absurd rfl h

theorem abs_sub_le_withSign (s t : UnpackedFloat.Sign) {a v : ℚ} (ha : 0 ≤ a) (hv : 0 ≤ v) :
    |a - v| ≤ |withSign t a - withSign s v| := by
  by_cases h : t = s
  · rw [h, abs_withSign_sub]
  · rw [abs_withSign_sub_of_ne ha hv h]
    exact abs_le.mpr ⟨by linarith, by linarith⟩

theorem Binary.value_nonneg (b : Binary) : 0 ≤ b.value := mul_nonneg (Nat.cast_nonneg _) (by positivity)

/-- A correctly rounded double is a nearest one. -/
theorem Rounded.nearest {s : UnpackedFloat.Sign} {v : ℚ} {x : Float} (h : Rounded s v x) (hpos : 0 ≤ v)
    (hv : v < limit) : Nearest (withSign s v) x := by
  have hwithin := h.within hv
  have hx := magnitudeOf_regular x
  have hdist : |toRat x - withSign s v| = |(magnitudeOf x).value - v| := by
    rw [toRat, h.sign, abs_withSign_sub]
  refine ⟨h.isFinite hv, fun y _ => ?_, fun y _ hne htie => ?_⟩
  · rw [hdist]
    exact (hwithin.nearest hx (magnitudeOf_regular y)).1.trans
      (abs_sub_le_withSign s (signOf y) (magnitudeOf y).value_nonneg hpos)
  · rw [hdist] at htie
    obtain ⟨hle, heven⟩ := hwithin.nearest hx (magnitudeOf_regular y)
    by_cases hsame : (magnitudeOf y).value = (magnitudeOf x).value
    · -- The other double differs in its sign only, and lies beyond zero.
      rcases Nat.eq_zero_or_pos (magnitudeOf x).m with hzero | hmpos
      · rw [hzero]
      · have hvpos : 0 < v := (Binary.low_pos hmpos).trans_le (Binary.within_le hwithin).1
        have hxpos : 0 < (magnitudeOf x).value := mul_pos (Nat.cast_pos.mpr hmpos) (by positivity)
        have hsign : signOf y ≠ s := by
          intro hsign
          rw [toRat, toRat, hsign, h.sign, hsame] at hne
          exact hne rfl
        rw [toRat, abs_withSign_sub_of_ne (magnitudeOf y).value_nonneg hpos hsign, hsame] at htie
        have hlt : |(magnitudeOf x).value - v| < (magnitudeOf x).value + v :=
          abs_lt.mpr ⟨by linarith, by linarith⟩
        exact absurd htie hlt.ne
    · have hge : |(magnitudeOf y).value - v| ≤ |(magnitudeOf x).value - v| := by
        rw [htie]
        exact abs_sub_le_withSign s (signOf y) (magnitudeOf y).value_nonneg hpos
      exact heven (hle.antisymm hge) hsame

/-- The nearest double is the number itself when any double is. -/
theorem Nearest.eq_iff {v : ℚ} {x : Float} (h : Nearest v x) : toRat x = v ↔ ∃ y, IsFinite y ∧ toRat y = v := by
  constructor
  · intro hx
    exact ⟨x, h.isFinite, hx⟩
  · rintro ⟨y, hy, hvalue⟩
    have hle := h.nearest y hy
    rw [hvalue, sub_self, abs_zero] at hle
    exact sub_eq_zero.mp (abs_nonpos_iff.mp hle)

/-! ## Integers -/

/-- A number that is a magnitude rounds to itself. -/
theorem Binary.value_of_within {b c : Binary} (hb : b.Regular) (hc : c.Regular) (h : b.Within c.value) :
    b.value = c.value := by
  rcases Nat.eq_zero_or_pos c.m with hzero | hpos
  · have hbzero : b.m = 0 := by
      by_contra hne
      have hlow := low_pos (Nat.pos_of_ne_zero hne)
      have hle := (within_le h).1
      rw [value_of_zero hzero] at hle
      exact hle.not_gt hlow
    rw [value_of_zero hzero, value_of_zero hbzero]
  · rw [eq_of_within hb hc h (within_self hpos)]

theorem Binary.exists_regular_of_lt {k : ℕ} (hk : k < 2 ^ 53) : ∃ c : Binary, c.Regular ∧ c.value = k := by
  rcases Nat.eq_zero_or_pos k with rfl | hpos
  · refine ⟨.make 0 (-1074), regular_make (by norm_num) le_rfl fun h => absurd h (lt_irrefl _), ?_⟩
    rw [value_of_zero rfl, Nat.cast_zero]
  · have hlog : k.log2 < 53 := (Nat.log2_lt hpos.ne').mpr hk
    obtain ⟨i, hi⟩ : ∃ i, k.log2 + i = 52 := ⟨52 - k.log2, by omega⟩
    have hlow := Nat.log2_self_le hpos.ne'
    have hhigh := Nat.lt_log2_self (n := k)
    have hscale : 0 < 2 ^ i := by positivity
    refine ⟨.make (k * 2 ^ i) (-i), regular_make ?_ (by omega) fun _ => ?_, ?_⟩
    · calc k * 2 ^ i < 2 ^ (k.log2 + 1) * 2 ^ i := Nat.mul_lt_mul_of_pos_right hhigh hscale
        _ = 2 ^ 53 := by rw [← pow_add, show k.log2 + 1 + i = 53 by omega]
    · calc 2 ^ 52 = 2 ^ k.log2 * 2 ^ i := by rw [← pow_add, hi]
        _ ≤ k * 2 ^ i := Nat.mul_le_mul_right _ hlow
    · simp only [value, make, zpow_neg, zpow_natCast]
      push_cast
      field_simp

/-- An integer of at most 53 bits is a double. -/
theorem toFloat_exact {n : UInt64} (hn : n.toNat < 2 ^ 53) :
    IsFinite n.toFloat ∧ signOf n.toFloat = .positive ∧ (magnitudeOf n.toFloat).value = n.toNat := by
  have hrounded := rounded_toFloat n
  have hlimit : (n.toNat : ℚ) < limit := by
    have hone : (1 : ℚ) ≤ 2 ^ (970 : ℤ) := one_le_zpow₀ (by norm_num) (by norm_num)
    calc (n.toNat : ℚ) < 2 ^ 53 := by exact_mod_cast hn
      _ ≤ (2 ^ 54 - 1) * 1 := by norm_num
      _ ≤ limit := mul_le_mul_of_nonneg_left hone (by norm_num)
  obtain ⟨c, hc, hvalue⟩ := Binary.exists_regular_of_lt hn
  have hwithin := hrounded.within hlimit
  rw [← hvalue] at hwithin
  exact ⟨hrounded.isFinite hlimit, hrounded.sign,
    (Binary.value_of_within (magnitudeOf_regular _) hc hwithin).trans hvalue⟩

/-- An integer is rounded to an integer: it has 53 bits, or the steps of the doubles are whole there. -/
theorem Binary.exists_nat_of_within {b : Binary} {k : ℕ} (hb : b.Regular) (h : b.Within k) :
    ∃ n : ℕ, b.value = n := by
  rcases Nat.lt_or_ge k (2 ^ 53) with hsmall | hlarge
  · obtain ⟨c, hc, hvalue⟩ := exists_regular_of_lt hsmall
    rw [← hvalue] at h
    exact ⟨k, (value_of_within hb hc h).trans hvalue⟩
  · have hq : 0 ≤ b.q := by
      by_contra hneg
      have hscale : (2 : ℚ) ^ (b.q - 2) ≤ 2 ^ (-3 : ℤ) := zpow_le_zpow_right₀ (by norm_num) (by omega)
      have hlt : (k : ℚ) < 2 ^ 53 := by
        calc (k : ℚ) < (2 ^ 55 - 2) * (2 : ℚ) ^ (b.q - 2) := h.lt_top hb
          _ ≤ (2 ^ 55 - 2) * 2 ^ (-3 : ℤ) := mul_le_mul_of_nonneg_left hscale (by norm_num)
          _ ≤ 2 ^ 53 := by norm_num
      exact absurd hlarge (Nat.not_le.mpr (by exact_mod_cast hlt))
    obtain ⟨i, hi⟩ := Int.eq_ofNat_of_zero_le hq
    refine ⟨b.m * 2 ^ i, ?_⟩
    rw [value, hi, zpow_natCast]
    push_cast
    rfl

theorem Binary.over_zero_div {b : Binary} {n : ℕ} (h : b.value = n) : (b.over 0).1 / (b.over 0).2 = n := by
  have hnum : b.m * 2 ^ b.q.toNat = n * 2 ^ (-b.q).toNat := by
    have hcast : (b.m : ℚ) * 2 ^ b.q.toNat = n * 2 ^ (-b.q).toNat := by
      rw [← h, value, mul_assoc, zpow_mul_pow_toNat two_ne_zero]
    exact_mod_cast hcast
  have hover : b.over 0 = (b.m * 2 ^ b.q.toNat * 1, 2 ^ (-b.q).toNat * 1) := rfl
  rw [hover, Nat.mul_one, Nat.mul_one, hnum]
  exact Nat.mul_div_cancel n (Nat.two_pow_pos _)

/-- The integer part of a double that is an integer is the double. -/
theorem truncate_of_nat {x : Float} {n : ℕ} (h : (magnitudeOf x).value = n) : (truncate x : ℚ) = toRat x := by
  have hquotient := Binary.over_zero_div h
  have htruncate : truncate x =
      if isNegative x then -((((magnitudeOf x).over 0).1 / ((magnitudeOf x).over 0).2 : ℕ) : ℤ)
      else ((((magnitudeOf x).over 0).1 / ((magnitudeOf x).over 0).2 : ℕ) : ℤ) := rfl
  rw [htruncate, hquotient, toRat, signOf, h]
  cases isNegative x with
  | true =>
    push_cast
    rfl
  | false => exact Int.cast_natCast n

end AdhocReport.Decimal
