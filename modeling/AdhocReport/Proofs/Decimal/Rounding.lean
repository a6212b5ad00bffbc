import AdhocReport.Proofs.Decimal.Shortest
set_option autoImplicit false

/-!
# Rounding to doubles

The model of the doubles keeps two bits beside a mantissa that is shifted to the right: whether half of
the last place is left out, and whether anything less is.  They suffice to round to the nearest mantissa,
an even one of two.  So rounding, multiplication and division come to the magnitude whose interval the
exact result lies in.
-/

namespace AdhocReport.Decimal

open Float.Model Float.Model.UnpackedFloat

/-! ## Residual bits -/

/-- What an accuracy says of the part that a mantissa leaves out. -/
def Tells : Accuracy → ℚ → Prop
  | .exact, rest => rest = 0
  | .inexact .lt, rest => 0 < rest ∧ rest < 1 / 2
  | .inexact .eq, rest => rest = 1 / 2
  | .inexact .gt, rest => 1 / 2 < rest ∧ rest < 1

theorem Tells.range {acc : Accuracy} {rest : ℚ} (h : Tells acc rest) : 0 ≤ rest ∧ rest < 1 := by
  cases acc with
  | exact =>
    cases h
    norm_num
  | inexact o =>
    cases o with
    | lt => exact ⟨h.1.le, h.2.trans (by norm_num)⟩
    | eq =>
      cases h
      norm_num
    | gt => exact ⟨(by norm_num : (0 : ℚ) ≤ 1 / 2).trans h.1.le, h.2⟩

theorem tells_exact (u : ℚ) : Tells .exact (u - u) := sub_self u

/-- The number lies where the mantissa and its residual bits say. -/
def Holds (em : ExtendedMantissa) (u : ℚ) : Prop := Tells em.accuracy (u - em.mantissa)

theorem holds_ofMantissaAndAccuracy {m : ℕ} {acc : Accuracy} {u : ℚ} (h : Tells acc (u - m)) :
    Holds (.ofMantissaAndAccuracy m acc) u := by
  cases acc with
  | exact => exact h
  | inexact o => cases o <;> exact h

theorem Holds.shiftRightOne {em : ExtendedMantissa} {u : ℚ} (h : Holds em u) : Holds em.shiftRightOne (u / 2) := by
  obtain ⟨m, r, s⟩ := em
  have hm : ((m % 2 : ℕ) : ℚ) + 2 * ((m / 2 : ℕ) : ℚ) = m := by exact_mod_cast Nat.mod_add_div m 2
  rcases Nat.mod_two_eq_zero_or_one m with hpar | hpar <;> cases r <;> cases s <;>
    simp [Holds, Tells, ExtendedMantissa.shiftRightOne, ExtendedMantissa.accuracy, hpar] at h hm ⊢ <;>
    (try constructor) <;> linarith

theorem Holds.shiftRight {em : ExtendedMantissa} {u : ℚ} (h : Holds em u) (n : ℕ) :
    Holds (em >>> n) (u / 2 ^ n) := by
  induction n with
  | zero =>
    rw [pow_zero, div_one]
    exact h
  | succ n ih =>
    rw [pow_succ, ← div_div]
    exact ih.shiftRightOne

theorem shiftRight_mantissa (em : ExtendedMantissa) (n : ℕ) : (em >>> n).mantissa = em.mantissa / 2 ^ n := by
  induction n with
  | zero => exact (Nat.div_one _).symm
  | succ n ih =>
    rw [pow_succ, ← Nat.div_div_eq_div_mul, ← ih]
    rfl

/-- The integer is nearest to the number, an even one of two. -/
def Rounds (u : ℚ) (r : ℕ) : Prop :=
  (2 * r - 1 < 2 * u ∨ r % 2 = 0 ∧ 2 * u = 2 * r - 1) ∧ (2 * u < 2 * r + 1 ∨ r % 2 = 0 ∧ 2 * u = 2 * r + 1)

theorem Holds.range {em : ExtendedMantissa} {u : ℚ} (h : Holds em u) : em.mantissa ≤ u ∧ u < em.mantissa + 1 := by
  obtain ⟨hlow, hhigh⟩ := Tells.range h
  constructor <;> linarith

theorem roundedMantissa_range (em : ExtendedMantissa) :
    em.mantissa ≤ em.roundedMantissa ∧ em.roundedMantissa ≤ em.mantissa + 1 := by
  obtain ⟨m, r, s⟩ := em
  cases r <;> cases s <;>
    simp only [ExtendedMantissa.roundedMantissa, ExtendedMantissa.accuracy, Accuracy.roundToNearestEven] <;> omega

theorem Holds.rounds {em : ExtendedMantissa} {u : ℚ} (h : Holds em u) : Rounds u em.roundedMantissa := by
  obtain ⟨m, r, s⟩ := em
  cases r <;> cases s <;>
    simp only [Holds, ExtendedMantissa.accuracy, Tells] at h <;>
    simp only [Rounds, ExtendedMantissa.roundedMantissa, ExtendedMantissa.accuracy, Accuracy.roundToNearestEven]
  · exact ⟨.inl (by linarith), .inl (by linarith)⟩
  · exact ⟨.inl (by linarith), .inl (by linarith)⟩
  · rcases Nat.mod_two_eq_zero_or_one m with hpar | hpar
    · rw [hpar, Nat.add_zero]
      exact ⟨.inl (by linarith), .inr ⟨hpar, by linarith⟩⟩
    · rw [hpar]
      push_cast
      exact ⟨.inr ⟨by omega, by linarith⟩, .inl (by linarith)⟩
  · push_cast
    exact ⟨.inl (by linarith), .inl (by linarith)⟩


/-! ## Regular magnitudes -/

namespace Binary

/-- The magnitude `m * 2 ^ q`, with the gap below that it has as a double. -/
def make (m : ℕ) (q : ℤ) : Binary := ⟨m, q, decide (m = 2 ^ 52 ∧ -1074 < q)⟩

theorem regular_make {m : ℕ} {q : ℤ} (hm : m < 2 ^ 53) (hq : -1074 ≤ q) (hnormal : -1074 < q → 2 ^ 52 ≤ m) :
    (make m q).Regular where
  mantissa := hm
  exponent := hq
  least h := decide_eq_false fun hnarrow => hnarrow.2.ne' h
  normal := hnormal
  narrow h := by
    rw [make, decide_eq_true_eq]
    exact and_iff_left h

/-- A regular magnitude is made of its mantissa and its exponent. -/
theorem Regular.eq_make {b : Binary} (h : b.Regular) : b = make b.m b.q := by
  obtain ⟨m, q, narrowBelow⟩ := b
  have hgap : narrowBelow = decide (m = 2 ^ 52 ∧ -1074 < q) := by
    rcases h.exponent.eq_or_lt with hleast | hnormal
    · exact (h.least hleast.symm).trans (decide_eq_false fun hnarrow => hnarrow.2.ne hleast).symm
    · rw [Bool.eq_iff_iff, decide_eq_true_eq]
      exact (h.narrow hnormal).trans (and_iff_left hnormal).symm
  rw [hgap]
  rfl

theorem high_make (m : ℕ) (q : ℤ) : (make m q).high = (4 * m + 2) * 2 ^ (q - 2) := by
  simp only [high, make]
  push_cast
  rfl

theorem low_make_of_narrow {q : ℤ} (h : -1074 < q) : (make (2 ^ 52) q).low = (2 ^ 54 - 1) * 2 ^ (q - 2) := by
  simp only [low, make, h, and_self, decide_true, if_true]
  norm_num

theorem low_make_of_wide {m : ℕ} {q : ℤ} (h : ¬ (m = 2 ^ 52 ∧ -1074 < q)) :
    (make m q).low = ((4 * m - 2 : ℕ) : ℚ) * 2 ^ (q - 2) := by
  simp only [low, make, decide_eq_true_eq, if_neg h]

theorem mul_zpow_eq (u : ℚ) (q : ℤ) : u * 2 ^ q = 4 * u * 2 ^ (q - 2) := by
  rw [zpow_sub₀ (by norm_num)]
  norm_num
  ring

/-- A number rounds to a magnitude when its mantissa is rounded to, unless the gap below is narrow and the
number lies in it. -/
theorem within_make {u : ℚ} {r : ℕ} {q : ℤ} (h : Rounds u r) (hpos : 0 ≤ u)
    (hnarrow : r = 2 ^ 52 → -1074 < q → r ≤ u) : (make r q).Within (u * 2 ^ q) := by
  have hscale : (0 : ℚ) < 2 ^ (q - 2) := by positivity
  obtain ⟨hbelow, habove⟩ := h
  rw [Within, high_make, mul_zpow_eq]
  constructor
  · by_cases hgap : r = 2 ^ 52 ∧ -1074 < q
    · obtain ⟨rfl, hq⟩ := hgap
      have hle := hnarrow rfl hq
      rw [low_make_of_narrow hq]
      push_cast at hle
      exact .inl (mul_lt_mul_of_pos_right (by linarith) hscale)
    · rw [low_make_of_wide hgap]
      rcases Nat.eq_zero_or_pos r with rfl | hr
      · rcases hpos.eq_or_lt with rfl | hpos
        · exact .inr ⟨rfl, by norm_num⟩
        · exact .inl (mul_lt_mul_of_pos_right (by simpa using hpos) hscale)
      · rw [Nat.cast_sub (by omega)]
        push_cast
        rcases hbelow with hless | ⟨heven, hsame⟩
        · exact .inl (mul_lt_mul_of_pos_right (by linarith) hscale)
        · exact .inr ⟨heven, by rw [show 4 * u = 4 * r - 2 by linarith]⟩
  · rcases habove with hless | ⟨heven, hsame⟩
    · exact .inl (mul_lt_mul_of_pos_right (by linarith) hscale)
    · exact .inr ⟨heven, by rw [show 4 * u = 4 * r + 2 by linarith]⟩

/-- A mantissa that is rounded up to `2 ^ 53` is halved. -/
theorem within_carry {u : ℚ} {q : ℤ} (h : Rounds u (2 ^ 53)) (hu : u < 2 ^ 53) (hq : -1074 ≤ q) :
    (make (2 ^ 52) (q + 1)).Within (u * 2 ^ q) := by
  have hscale : (0 : ℚ) < 2 ^ (q + 1 - 2) := by positivity
  have hvalue : u * 2 ^ q = 2 * u * 2 ^ (q + 1 - 2) := by
    rw [show q + 1 - 2 = q - 1 by ring, zpow_sub₀ (by norm_num)]
    norm_num
    ring
  rw [Within, high_make, low_make_of_narrow (by omega), hvalue]
  push_cast
  refine ⟨?_, .inl (mul_lt_mul_of_pos_right (by linarith) hscale)⟩
  rcases h.1 with hless | ⟨-, hsame⟩
  · push_cast at hless
    exact .inl (mul_lt_mul_of_pos_right (by linarith) hscale)
  · push_cast at hsame
    have heven : (make (2 ^ 52) (q + 1)).m % 2 = 0 := by norm_num [make]
    exact .inr ⟨heven, by rw [show 2 * u = 2 ^ 54 - 1 by linarith]⟩

end Binary

/-! ## Rounding -/

theorem mantissaBits_eq : Format.binary64.mantissaBits = 53 := rfl

theorem targetExponent_eq (m : ℕ) (e : ℤ) :
    Format.binary64.targetExponent (totalExponent m e) = max (m.log2 + e - 52) (-1074) := by
  simp only [Format.targetExponent, totalExponent, mantissaBits_eq, Format.minExponent]
  norm_num
  omega

/-- The bits of a mantissa that are too many at the exponent of its double. -/
def excess (m : ℕ) (e : ℤ) : ℕ := (max ((m.log2 : ℤ) + e - 52) (-1074) - e).toNat

theorem shiftToTargetExponent_eq (m : ℕ) (e : ℤ) (acc : Accuracy) :
    shiftToTargetExponent .binary64 m e acc =
      (ExtendedMantissa.ofMantissaAndAccuracy m acc >>> excess m e, e + excess m e) := by
  rw [shiftToTargetExponent, targetExponent_eq]
  rfl

/-- The exponent is low enough that the mantissa has all bits of a double, or is the least. -/
def Fine (m : ℕ) (e : ℤ) : Prop := 52 ≤ m.log2 ∨ e ≤ -1074

theorem Fine.add_excess {m : ℕ} {e : ℤ} (h : Fine m e) :
    e + excess m e = max ((m.log2 : ℤ) + e - 52) (-1074) := by
  unfold Fine at h
  unfold excess
  omega

theorem ofMantissaAndAccuracy_mantissa (m : ℕ) (acc : Accuracy) :
    (ExtendedMantissa.ofMantissaAndAccuracy m acc).mantissa = m := by
  cases acc with
  | exact => rfl
  | inexact o => cases o <;> rfl

/-- What is left of a fine mantissa at the exponent of its double. -/
theorem shiftToTargetExponent_of_fine {m : ℕ} {e : ℤ} {acc : Accuracy} {u : ℚ} (h : Tells acc (u - m))
    (hfine : Fine m e) :
    ∃ em q, shiftToTargetExponent .binary64 m e acc = (em, q) ∧ -1074 ≤ q ∧ em.mantissa < 2 ^ 53 ∧
      (-1074 < q → 2 ^ 52 ≤ em.mantissa) ∧ ∃ w, Holds em w ∧ u * 2 ^ e = w * 2 ^ q := by
  have hq := hfine.add_excess
  rw [shiftToTargetExponent_eq]
  generalize excess m e = k at hq ⊢
  refine ⟨_, _, rfl, by omega, ?_, fun hnormal => ?_, u / 2 ^ k, (holds_ofMantissaAndAccuracy h).shiftRight k, ?_⟩
  · rw [shiftRight_mantissa, ofMantissaAndAccuracy_mantissa, Nat.div_lt_iff_lt_mul (by positivity), ← pow_add]
    calc m < 2 ^ (m.log2 + 1) := Nat.lt_log2_self
      _ ≤ 2 ^ (53 + k) := Nat.pow_le_pow_right (by norm_num) (by omega)
  · have hlog : m.log2 = 52 + k := by omega
    have hm : m ≠ 0 := by
      rintro rfl
      rw [Nat.log2_zero] at hlog
      omega
    rw [shiftRight_mantissa, ofMantissaAndAccuracy_mantissa, Nat.le_div_iff_mul_le (by positivity), ← pow_add,
      ← hlog]
    exact Nat.log2_self_le hm
  · rw [zpow_add₀ (by norm_num), zpow_natCast]
    field_simp

/-- A mantissa that is no wider than that of a double keeps its exponent. -/
theorem shiftToTargetExponent_of_narrow {m : ℕ} {q : ℤ} (hm : m < 2 ^ 53) (hq : -1074 ≤ q) :
    shiftToTargetExponent .binary64 m q .exact = (⟨m, false, false⟩, q) := by
  have hlog : m.log2 ≤ 52 := by
    rcases Nat.eq_zero_or_pos m with rfl | hpos
    · rw [Nat.log2_zero]
      omega
    · exact Nat.lt_succ_iff.mp ((Nat.log2_lt hpos.ne').mpr hm)
  have hexcess : excess m q = 0 := by
    unfold excess
    omega
  rw [shiftToTargetExponent_eq, hexcess, Nat.cast_zero, add_zero]
  rfl

theorem shiftToTargetExponent_carry {q : ℤ} (hq : -1074 ≤ q) :
    shiftToTargetExponent .binary64 (2 ^ 53) q .exact = (⟨2 ^ 52, false, false⟩, q + 1) := by
  have hexcess : excess (2 ^ 53) q = 1 := by
    rw [excess, Nat.log2_two_pow]
    omega
  rw [shiftToTargetExponent_eq, hexcess]
  rfl

/-- The unpacked float of a sign and a magnitude. -/
def Binary.signed (s : UnpackedFloat.Sign) (b : Binary) : UnpackedFloat :=
  if h : b.m = 0 then .zero s else .finite s b.m b.q (Nat.pos_of_ne_zero h)

/-- The unpacked float has the sign and the regular magnitude that the number rounds to; there is no bound on
its exponent yet. -/
def RoundsTo (s : UnpackedFloat.Sign) (v : ℚ) (u : UnpackedFloat) : Prop :=
  ∃ b : Binary, b.Regular ∧ b.Within v ∧ u = b.signed s

/-- Rounding with residual bits, shifting and a possible carry come to the magnitude that the number rounds to. -/
theorem roundsTo_roundWithAccuracy (s : UnpackedFloat.Sign) {m : ℕ} {e : ℤ} {acc : Accuracy} {u : ℚ}
    (h : Tells acc (u - m)) (hfine : Fine m e) : RoundsTo s (u * 2 ^ e) (roundWithAccuracy .binary64 s m e acc) := by
  obtain ⟨em, q, hshift, hq, hbelow, hnormal, w, hholds, hvalue⟩ := shiftToTargetExponent_of_fine h hfine
  obtain ⟨hle, hle_succ⟩ := roundedMantissa_range em
  obtain ⟨hwlow, hwhigh⟩ := hholds.range
  have hrounds := hholds.rounds
  have hwpos : 0 ≤ w := (Nat.cast_nonneg _).trans hwlow
  rw [hvalue]
  unfold roundWithAccuracy
  rw [hshift]
  dsimp only
  generalize em.roundedMantissa = r at *
  rcases Nat.lt_or_ge r (2 ^ 53) with hnarrow | hwide
  · rw [shiftToTargetExponent_of_narrow hnarrow hq]
    refine ⟨.make r q, Binary.regular_make hnarrow hq fun hlt => (hnormal hlt).trans hle,
      Binary.within_make hrounds hwpos fun hr hlt => ?_, rfl⟩
    have hsame : r = em.mantissa := hle.antisymm' (hr.le.trans (hnormal hlt))
    rw [hsame]
    exact hwlow
  · have hr : r = 2 ^ 53 := by omega
    rw [hr] at hrounds ⊢
    have hw : w < 2 ^ 53 := by
      have hem : ((em.mantissa : ℕ) : ℚ) + 1 ≤ 2 ^ 53 := by exact_mod_cast hbelow
      linarith
    rw [shiftToTargetExponent_carry hq]
    exact ⟨.make (2 ^ 52) (q + 1), Binary.regular_make (by norm_num) (by omega) fun _ => le_rfl,
      Binary.within_carry hrounds hw hq, rfl⟩

/-! ## Operations -/

theorem le_log2_shiftLeft {m : ℕ} (hm : 0 < m) (k : ℕ) : m.log2 + k ≤ (m <<< k).log2 := by
  rw [Nat.shiftLeft_eq, Nat.le_log2 (by positivity), pow_add]
  exact Nat.mul_le_mul_right _ (Nat.log2_self_le hm.ne')

theorem roundsTo_round (s : UnpackedFloat.Sign) {m : ℕ} (e : ℤ) (hm : 0 < m) :
    RoundsTo s (m * 2 ^ e) (UnpackedFloat.round .binary64 s m e) := by
  unfold UnpackedFloat.round decreaseExponent
  rw [targetExponent_eq]
  dsimp only
  obtain ⟨k, hk⟩ : ∃ k : ℕ, (e - max ((m.log2 : ℤ) + e - 52) (-1074)).toNat = k := ⟨_, rfl⟩
  rw [hk]
  have hfine : Fine (m <<< k) (e - k) := by
    have hlog := le_log2_shiftLeft hm k
    unfold Fine
    omega
  have hvalue : (m : ℚ) * 2 ^ e = ((m <<< k : ℕ) : ℚ) * 2 ^ (e - k) := by
    rw [Nat.shiftLeft_eq, zpow_sub₀ (by norm_num), zpow_natCast]
    push_cast
    field_simp
  rw [hvalue]
  exact roundsTo_roundWithAccuracy s (tells_exact _) hfine

theorem roundsTo_mul {s t : UnpackedFloat.Sign} {m n : ℕ} {e f : ℤ} (hm : 0 < m) (hn : 0 < n)
    (hfine : Fine (m * n) (e + f)) :
    RoundsTo (s * t) (m * 2 ^ e * (n * 2 ^ f)) (mul .binary64 (.finite s m e hm) (.finite t n f hn)) := by
  have hvalue : (m : ℚ) * 2 ^ e * (n * 2 ^ f) = ((m * n : ℕ) : ℚ) * 2 ^ (e + f) := by
    rw [zpow_add₀ (by norm_num)]
    push_cast
    ring
  rw [hvalue]
  exact roundsTo_roundWithAccuracy (s * t) (tells_exact _) hfine

/-- The remainder of a division tells how much of the quotient is left out. -/
theorem tells_accuracyOfFraction (m : ℕ) {n : ℕ} (hn : 0 < n) :
    Tells (accuracyOfFraction (m % n) n) ((m : ℚ) / n - (m / n : ℕ)) := by
  have hpos : (0 : ℚ) < n := by exact_mod_cast hn
  have hrest : (m : ℚ) / n - (m / n : ℕ) = (m % n : ℕ) / n := by
    have hsplit : ((n * (m / n) + m % n : ℕ) : ℚ) = m := by rw [Nat.div_add_mod]
    push_cast at hsplit
    field_simp
    linarith
  have hlt : ((m % n : ℕ) : ℚ) < n := by exact_mod_cast Nat.mod_lt m hn
  rw [hrest]
  unfold accuracyOfFraction
  generalize m % n = r at hlt ⊢
  split
  · next hr =>
    rw [hr, Nat.cast_zero, zero_div]
    exact rfl
  · next hr =>
    have hrpos : (0 : ℚ) < r := by exact_mod_cast Nat.pos_of_ne_zero hr
    rcases Nat.lt_trichotomy (2 * r) n with hless | hsame | hgreater
    · rw [Nat.compare_eq_lt.mpr hless]
      have hless : (2 * r : ℚ) < n := by exact_mod_cast hless
      exact ⟨by positivity, by rw [div_lt_div_iff₀ hpos two_pos]; linarith⟩
    · rw [Nat.compare_eq_eq.mpr hsame]
      have hsame : (2 * r : ℚ) = n := by exact_mod_cast hsame
      show (r : ℚ) / n = 1 / 2
      rw [div_eq_div_iff hpos.ne' two_ne_zero]
      linarith
    · rw [Nat.compare_eq_gt.mpr hgreater]
      have hgreater : (n : ℚ) < 2 * r := by exact_mod_cast hgreater
      exact ⟨by rw [div_lt_div_iff₀ two_pos hpos]; linarith, (div_lt_one hpos).mpr hlt⟩

theorem roundsTo_div {s t : UnpackedFloat.Sign} {m n : ℕ} {e f : ℤ} (hm : 0 < m) (hn : 0 < n) :
    RoundsTo (s / t) (m * 2 ^ e / (n * 2 ^ f)) (div .binary64 (.finite s m e hm) (.finite t n f hn)) := by
  obtain ⟨q, hq⟩ : ∃ q, min (e - f) (Format.binary64.targetExponent (totalExponent m e - totalExponent n f)) = q :=
    ⟨_, rfl⟩
  obtain ⟨k, hk⟩ : ∃ k : ℕ, (e - f - q).toNat = k := ⟨_, rfl⟩
  have hcore : divCore .binary64 m e n f = ((m <<< k) / n, q, accuracyOfFraction ((m <<< k) % n) n) := by
    simp only [divCore, hq, hk]
  have hsum : q = e - f - k := by omega
  have hvalue : (m : ℚ) * 2 ^ e / (n * 2 ^ f) = ((m <<< k : ℕ) : ℚ) / n * 2 ^ q := by
    rw [hsum, Nat.shiftLeft_eq, zpow_sub₀ (by norm_num), zpow_sub₀ (by norm_num), zpow_natCast]
    push_cast
    field_simp
  have hfine : Fine ((m <<< k) / n) q := by
    rcases le_or_gt q (-1074) with hleast | hnormal
    · exact .inr hleast
    · have hbits : n.log2 + 1 + 52 ≤ (m <<< k).log2 := by
        have hlog := le_log2_shiftLeft hm k
        simp only [Format.targetExponent, totalExponent, mantissaBits_eq, Format.minExponent] at hq
        norm_num at hq
        omega
      refine .inl ?_
      have hquotient : 2 ^ 52 ≤ (m <<< k) / n := by
        rw [Nat.le_div_iff_mul_le hn]
        calc 2 ^ 52 * n ≤ 2 ^ 52 * 2 ^ (n.log2 + 1) := Nat.mul_le_mul_left _ Nat.lt_log2_self.le
          _ = 2 ^ (n.log2 + 1 + 52) := by rw [← pow_add, add_comm]
          _ ≤ 2 ^ (m <<< k).log2 := Nat.pow_le_pow_right (by norm_num) hbits
          _ ≤ m <<< k := Nat.log2_self_le (by rw [Nat.shiftLeft_eq]; positivity)
      exact (Nat.le_log2 (by omega)).mpr hquotient
  have hdiv : div .binary64 (.finite s m e hm) (.finite t n f hn) =
      roundWithAccuracy .binary64 (s / t) (divCore .binary64 m e n f).1 (divCore .binary64 m e n f).2.1
        (divCore .binary64 m e n f).2.2 := rfl
  rw [hvalue, hdiv, hcore]
  exact roundsTo_roundWithAccuracy (s / t) (tells_accuracyOfFraction _ hn) hfine

end AdhocReport.Decimal
