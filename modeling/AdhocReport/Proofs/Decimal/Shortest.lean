import AdhocReport.Decimal.Shortest
import Mathlib.Algebra.Order.Field.Power
import Mathlib.Algebra.Order.Field.Rat
import Mathlib.Tactic.FieldSimp
import Mathlib.Tactic.Linarith
import Mathlib.Tactic.Positivity
import Mathlib.Tactic.Ring
set_option autoImplicit false

/-!
# Shortest decimals identify their doubles

The reals that round to a double form an interval, and the intervals of different doubles have no point
in common: neighbours share an end, but of two neighbours one has an odd mantissa and leaves its ends
out.  The digits that are written for a double denote a point of its interval, so no other double is
written with the same value.
-/

namespace AdhocReport.Decimal

/-- The value of a decimal number. -/
def Digits.value (d : Digits) : ℚ := d.digits * (10 : ℚ) ^ d.exp

namespace Binary

/-- The lower end of the reals that round to the value. -/
def low (x : Binary) : ℚ := ((if x.narrowBelow then 4 * x.m - 1 else 4 * x.m - 2 : ℕ) : ℚ) * (2 : ℚ) ^ (x.q - 2)

/-- The upper end of the reals that round to the value. -/
def high (x : Binary) : ℚ := ((4 * x.m + 2 : ℕ) : ℚ) * (2 : ℚ) ^ (x.q - 2)

/-- The number rounds to the value. -/
def Within (x : Binary) (v : ℚ) : Prop :=
  (x.low < v ∨ x.m % 2 = 0 ∧ v = x.low) ∧ (v < x.high ∨ x.m % 2 = 0 ∧ v = x.high)

end Binary

/-! ## Exact comparison -/

theorem zpow_mul_pow_toNat {a : ℚ} (h : a ≠ 0) (i : ℤ) : a ^ i * a ^ (-i).toNat = a ^ i.toNat := by
  rw [← zpow_natCast, ← zpow_natCast, ← zpow_add₀ h]
  congr 1
  omega

theorem compareScaled_eq (a : ℕ) (i : ℤ) (n : ℕ) (j : ℤ) :
    compareScaled a i n j = compare ((a : ℚ) * 10 ^ i) ((n : ℚ) * 2 ^ j) := by
  have hpositive : (0 : ℚ) < 10 ^ (-i).toNat * 2 ^ (-j).toNat := by positivity
  have hleft : ((a * Nat.pow 10 i.toNat * Nat.pow 2 (-j).toNat : ℕ) : ℚ) =
      (a : ℚ) * 10 ^ i * (10 ^ (-i).toNat * 2 ^ (-j).toNat) := by
    have hten := zpow_mul_pow_toNat (show (10 : ℚ) ≠ 0 by norm_num) i
    push_cast [Nat.pow_eq]
    rw [← hten]
    ring
  have hright : ((n * Nat.pow 2 j.toNat * Nat.pow 10 (-i).toNat : ℕ) : ℚ) =
      (n : ℚ) * 2 ^ j * (10 ^ (-i).toNat * 2 ^ (-j).toNat) := by
    have htwo := zpow_mul_pow_toNat (show (2 : ℚ) ≠ 0 by norm_num) j
    push_cast [Nat.pow_eq]
    rw [← htwo]
    ring
  unfold compareScaled
  generalize a * Nat.pow 10 i.toNat * Nat.pow 2 (-j).toNat = l at hleft ⊢
  generalize n * Nat.pow 2 j.toNat * Nat.pow 10 (-i).toNat = r at hright ⊢
  rcases lt_trichotomy l r with hless | hsame | hgreater
  · have : (a : ℚ) * 10 ^ i < (n : ℚ) * 2 ^ j := by
      rw [← mul_lt_mul_iff_left₀ hpositive, ← hleft, ← hright]
      exact_mod_cast hless
    rw [compare_lt_iff_lt.mpr hless, compare_lt_iff_lt.mpr this]
  · have : (a : ℚ) * 10 ^ i = (n : ℚ) * 2 ^ j := by
      apply mul_right_cancel₀ hpositive.ne'
      rw [← hleft, ← hright, hsame]
    rw [compare_eq_iff_eq.mpr hsame, compare_eq_iff_eq.mpr this]
  · have : (n : ℚ) * 2 ^ j < (a : ℚ) * 10 ^ i := by
      rw [← mul_lt_mul_iff_left₀ hpositive, ← hleft, ← hright]
      exact_mod_cast hgreater
    rw [compare_gt_iff_gt.mpr hgreater, compare_gt_iff_gt.mpr this]

namespace Binary

theorem readsBack_iff {x : Binary} {d : Digits} : x.readsBack d = true ↔ x.Within d.value := by
  simp only [readsBack, compareScaled_eq, Bool.and_eq_true, Bool.or_eq_true, beq_iff_eq,
    compare_lt_iff_lt, compare_gt_iff_gt, compare_eq_iff_eq, Within, low, high, Digits.value]

/-! ## Shortest digits -/

theorem onGrid_within {x : Binary} {e : ℤ} {d : Digits} (h : x.onGrid e = some d) : x.Within d.value := by
  rw [← readsBack_iff]
  unfold onGrid at h
  generalize x.over e = fraction at h
  obtain ⟨num, den⟩ := fraction
  dsimp only at h
  split at h
  · cases h
    assumption
  · cases h
    assumption
  · cases h
  · split at h
    · cases h
      assumption
    · cases h
      assumption
    · cases h
      split <;> assumption

theorem exact_value (x : Binary) : x.exact.value = (x.m : ℚ) * 2 ^ x.q := by
  unfold exact
  split
  · rename_i hwhole
    obtain ⟨n, hsame⟩ := Int.eq_ofNat_of_zero_le hwhole
    simp [Digits.value, hsame, Nat.pow_eq]
  · rename_i hfraction
    obtain ⟨n, hsame⟩ : ∃ n : ℕ, x.q = -n := ⟨(-x.q).toNat, by omega⟩
    have hten : (10 : ℚ) ^ n = 5 ^ n * 2 ^ n := by
      rw [← mul_pow]
      norm_num
    simp only [Digits.value, hsame, neg_neg, Int.toNat_natCast, Nat.pow_eq, zpow_neg, zpow_natCast, hten]
    push_cast
    field_simp

theorem within_self {x : Binary} (h : 0 < x.m) : x.Within ((x.m : ℚ) * 2 ^ x.q) := by
  have hpower : (2 : ℚ) ^ x.q = 4 * 2 ^ (x.q - 2) := by
    rw [zpow_sub₀ (by norm_num)]
    norm_num
    ring
  have hpositive : (0 : ℚ) < 2 ^ (x.q - 2) := by positivity
  have hvalue : (x.m : ℚ) * 2 ^ x.q = ((4 * x.m : ℕ) : ℚ) * 2 ^ (x.q - 2) := by
    rw [hpower]
    push_cast
    ring
  rw [hvalue]
  refine ⟨.inl ?_, .inl ?_⟩
  · apply mul_lt_mul_of_pos_right _ hpositive
    split <;> exact_mod_cast (by omega)
  · apply mul_lt_mul_of_pos_right _ hpositive
    exact_mod_cast (by omega : 4 * x.m < 4 * x.m + 2)

theorem strip_value (fuel : ℕ) (d : Digits) : (Digits.strip fuel d).value = d.value := by
  induction fuel generalizing d with
  | zero => rfl
  | succ fuel ih =>
    unfold Digits.strip
    split
    · rename_i hends
      simp only [Bool.and_eq_true, bne_iff_ne, beq_iff_eq] at hends
      have htenfold : d.digits = d.digits / 10 * 10 := by omega
      rw [ih]
      simp only [Digits.value]
      conv_rhs => rw [htenfold]
      rw [zpow_add_one₀ (by norm_num)]
      push_cast
      ring
    · rfl

/-- The digits that are written denote a number that rounds to the value. -/
theorem shortest_within {x : Binary} (h : 0 < x.m) : x.Within x.shortest.value := by
  have hnonzero : (x.m == 0) = false := by simpa using h.ne'
  simp only [shortest, hnonzero, Bool.false_eq_true, if_false, strip_value]
  cases hfound : (List.range 17).findSome? fun (n : ℕ) => x.onGrid (x.scale - (n + 1 : ℕ)) with
  | none =>
    rw [Option.getD_none, exact_value]
    exact within_self h
  | some d =>
    obtain ⟨n, -, honGrid⟩ := List.exists_of_findSome?_eq_some hfound
    exact onGrid_within honGrid

theorem shortest_of_zero {x : Binary} (h : x.m = 0) : x.shortest = ⟨0, 0⟩ := by
  simp [shortest, h]

/-! ## Disjoint intervals -/

/-- The mantissa has at most 53 bits; it has fewer only at the least exponent, and the gap below is the
narrow one exactly at the least mantissa of a higher exponent. -/
structure Regular (x : Binary) : Prop where
  mantissa : x.m < 2 ^ 53
  exponent : -1074 ≤ x.q
  least : x.q = -1074 → x.narrowBelow = false
  normal : -1074 < x.q → 2 ^ 52 ≤ x.m
  narrow : -1074 < x.q → (x.narrowBelow = true ↔ x.m = 2 ^ 52)

/-- There is one zero. -/
theorem Regular.eq_of_zero {x y : Binary} (hregular : x.Regular) (hregular' : y.Regular) (h : x.m = 0)
    (h' : y.m = 0) : x = y := by
  have hexponent : ∀ {z : Binary}, z.Regular → z.m = 0 → z.q = -1074 := by
    intro z hregular hnone
    by_contra hother
    have := hregular.normal (lt_of_le_of_ne hregular.exponent (Ne.symm hother))
    omega
  have hnarrow := hregular.least (hexponent hregular h)
  have hnarrow' := hregular'.least (hexponent hregular' h')
  have hsame := (hexponent hregular h).trans (hexponent hregular' h').symm
  obtain ⟨m, q, narrowBelow⟩ := x
  obtain ⟨m', q', narrowBelow'⟩ := y
  cases hnarrow
  cases hnarrow'
  cases hsame
  cases h
  cases h'
  rfl

theorem within_le {x : Binary} {v : ℚ} (h : x.Within v) : x.low ≤ v ∧ v ≤ x.high := by
  obtain ⟨hbelow, habove⟩ := h
  constructor
  · rcases hbelow with hless | ⟨-, hsame⟩
    · exact hless.le
    · exact hsame.ge
  · rcases habove with hless | ⟨-, hsame⟩
    · exact hless.le
    · exact hsame.le

theorem low_pos {x : Binary} (h : 0 < x.m) : 0 < x.low := by
  apply mul_pos _ (by positivity)
  split <;> exact_mod_cast (by omega)

/-- The doubles of one exponent have disjoint intervals. -/
theorem not_within_of_lt {x y : Binary} {v : ℚ} (hexponent : x.q = y.q) (hless : x.m < y.m)
    (hx : x.Within v) (hy : y.Within v) : False := by
  have hupper := (within_le hx).2
  have hlower := (within_le hy).1
  have hpositive : (0 : ℚ) < 2 ^ (x.q - 2) := by positivity
  have hapart : ((4 * x.m + 2 : ℕ) : ℚ) ≤ ((if y.narrowBelow then 4 * y.m - 1 else 4 * y.m - 2 : ℕ) : ℚ) := by
    split <;> exact_mod_cast (by omega)
  have hends : x.high ≤ y.low := by
    rw [high, low, hexponent]
    exact mul_le_mul_of_nonneg_right hapart (by positivity)
  have heven : x.m % 2 = 0 := by
    rcases hx.2 with hinside | ⟨heven, -⟩
    · exact absurd (hends.trans hlower) (not_le.mpr hinside)
    · exact heven
  have heven' : y.m % 2 = 0 := by
    rcases hy.1 with hinside | ⟨heven, -⟩
    · exact absurd (hupper.trans hends) (not_le.mpr hinside)
    · exact heven
  have hsame : x.high = y.low := le_antisymm hends (hlower.trans hupper)
  rw [high, low, hexponent] at hsame
  have htouching := mul_right_cancel₀ (by positivity : (2 : ℚ) ^ (y.q - 2) ≠ 0) hsame
  have htouching : 4 * x.m + 2 = if y.narrowBelow then 4 * y.m - 1 else 4 * y.m - 2 := by
    exact_mod_cast htouching
  split at htouching <;> omega

/-- The mantissas of a normal exponent start at `2 ^ 52`. -/
theorem Regular.le_low {x : Binary} (hregular : x.Regular) (h : -1074 < x.q) :
    (2 ^ 54 - 1) * (2 : ℚ) ^ (x.q - 2) ≤ x.low := by
  have hnormal := hregular.normal h
  have hnarrow := hregular.narrow h
  have hbottom : ((2 ^ 54 - 1 : ℕ) : ℚ) ≤ ((if x.narrowBelow then 4 * x.m - 1 else 4 * x.m - 2 : ℕ) : ℚ) := by
    split
    · exact_mod_cast (by omega)
    · rename_i hwide
      have : x.m ≠ 2 ^ 52 := fun h => hwide (hnarrow.mpr h)
      exact_mod_cast (by omega)
  calc (2 ^ 54 - 1) * (2 : ℚ) ^ (x.q - 2) = ((2 ^ 54 - 1 : ℕ) : ℚ) * (2 : ℚ) ^ (x.q - 2) := by norm_num
    _ ≤ x.low := mul_le_mul_of_nonneg_right hbottom (by positivity)

/-- The mantissas of an exponent end below `2 ^ 53`, with an odd one. -/
theorem Within.lt_top {x : Binary} {v : ℚ} (h : x.Within v) (hregular : x.Regular) :
    v < (2 ^ 55 - 2) * (2 : ℚ) ^ (x.q - 2) := by
  have hmantissa := hregular.mantissa
  have hpositive : (0 : ℚ) < 2 ^ (x.q - 2) := by positivity
  have htop : ((2 ^ 55 - 2 : ℕ) : ℚ) = 2 ^ 55 - 2 := by norm_num
  rw [← htop]
  rcases h.2 with hinside | ⟨heven, hsame⟩
  · refine hinside.trans_le (mul_le_mul_of_nonneg_right ?_ hpositive.le)
    exact_mod_cast (by omega : 4 * x.m + 2 ≤ 2 ^ 55 - 2)
  · rw [hsame]
    refine mul_lt_mul_of_pos_right ?_ hpositive
    exact_mod_cast (by omega : 4 * x.m + 2 < 2 ^ 55 - 2)

/-- The doubles of a higher exponent lie above those of a lower one. -/
theorem not_within_of_exponent_lt {x y : Binary} {v : ℚ} (hregular : x.Regular) (hregular' : y.Regular)
    (hless : x.q < y.q) (hx : x.Within v) (hy : y.Within v) : False := by
  have hleast := hregular.exponent
  have hdouble : (2 : ℚ) * 2 ^ (x.q - 2) ≤ 2 ^ (y.q - 2) := by
    rw [← zpow_one_add₀ (by norm_num)]
    exact zpow_le_zpow_right₀ (by norm_num) (by omega)
  have hapart : v < v := by
    calc v < (2 ^ 55 - 2) * (2 : ℚ) ^ (x.q - 2) := hx.lt_top hregular
      _ = (2 ^ 54 - 1) * (2 * (2 : ℚ) ^ (x.q - 2)) := by ring
      _ ≤ (2 ^ 54 - 1) * (2 : ℚ) ^ (y.q - 2) := mul_le_mul_of_nonneg_left hdouble (by norm_num)
      _ ≤ y.low := hregular'.le_low (by omega)
      _ ≤ v := (within_le hy).1
  exact lt_irrefl v hapart

theorem eq_of_within {x y : Binary} {v : ℚ} (hregular : x.Regular) (hregular' : y.Regular)
    (hx : x.Within v) (hy : y.Within v) : x = y := by
  rcases lt_trichotomy x.q y.q with hless | hexponent | hgreater
  · exact (not_within_of_exponent_lt hregular hregular' hless hx hy).elim
  · rcases lt_trichotomy x.m y.m with hless | hmantissa | hgreater
    · exact (not_within_of_lt hexponent hless hx hy).elim
    · have hnarrow : x.narrowBelow = y.narrowBelow := by
        rcases hregular.exponent.eq_or_lt with hleast | hnormal
        · rw [hregular.least hleast.symm, hregular'.least (hexponent ▸ hleast.symm)]
        · rw [Bool.eq_iff_iff, hregular.narrow hnormal, hregular'.narrow (hexponent ▸ hnormal), hmantissa]
      obtain ⟨m, q, narrowBelow⟩ := x
      obtain ⟨m', q', narrowBelow'⟩ := y
      cases hexponent
      cases hmantissa
      cases hnarrow
      rfl
    · exact (not_within_of_lt hexponent.symm hgreater hy hx).elim
  · exact (not_within_of_exponent_lt hregular' hregular hgreater hy hx).elim

/-- Different values are written with digits of different values. -/
theorem eq_of_shortest_value {x y : Binary} (hregular : x.Regular) (hregular' : y.Regular)
    (h : x.shortest.value = y.shortest.value) : x = y := by
  have hpositive : ∀ {z : Binary}, 0 < z.m → 0 < z.shortest.value := fun hsome =>
    (low_pos hsome).trans_le (within_le (shortest_within hsome)).1
  have hnull : ∀ {z : Binary}, z.m = 0 → z.shortest.value = 0 := fun hnone => by
    rw [shortest_of_zero hnone]
    simp [Digits.value]
  rcases Nat.eq_zero_or_pos x.m with hnone | hsome
  · rcases Nat.eq_zero_or_pos y.m with hnone' | hsome'
    · exact hregular.eq_of_zero hregular' hnone hnone'
    · have := hpositive hsome'
      rw [← h, hnull hnone] at this
      exact absurd this (lt_irrefl 0)
  · rcases Nat.eq_zero_or_pos y.m with hnone' | hsome'
    · have := hpositive hsome
      rw [h, hnull hnone'] at this
      exact absurd this (lt_irrefl 0)
    · have hx := shortest_within hsome
      rw [h] at hx
      exact eq_of_within hregular hregular' hx (shortest_within hsome')

end Binary

end AdhocReport.Decimal
