import AdhocReport.Decimal.Numeral
import AdhocReport.Proofs.Decimal.Nearest
set_option autoImplicit false

/-!
# Reading numerals

A numeral is read as its correctly rounded value.  A short one is a product or a quotient of two doubles, one of
them a tabulated power of ten; a longer one is rounded in the model of the doubles; and an exponent beyond all
doubles gives an infinity or zero without any computation.
-/

namespace AdhocReport.Decimal

open Float.Model Float.Model.UnpackedFloat

/-! ## Powers of ten -/

theorem powerOfTen_fields : ∀ e : Fin 23,
    (Float.exactlyRepresentablePowersOfTen[e]).isInf = false ∧
      (Float.exactlyRepresentablePowersOfTen[e]).isNaN = false ∧
      isNegative (Float.exactlyRepresentablePowersOfTen[e]) = false ∧
      -52 ≤ (magnitudeOf (Float.exactlyRepresentablePowersOfTen[e])).q ∧
      (magnitudeOf (Float.exactlyRepresentablePowersOfTen[e])).m *
        2 ^ ((magnitudeOf (Float.exactlyRepresentablePowersOfTen[e])).q + 52).toNat = 10 ^ e.val * 2 ^ 52 := by
  decide +kernel

/-- The tabulated powers of ten are doubles. -/
theorem powerOfTen_exact {e : ℕ} (h : e < Float.exactlyRepresentablePowersOfTen.size) :
    IsFinite Float.exactlyRepresentablePowersOfTen[e] ∧
      signOf Float.exactlyRepresentablePowersOfTen[e] = .positive ∧
      (magnitudeOf Float.exactlyRepresentablePowersOfTen[e]).value = 10 ^ e := by
  obtain ⟨hinf, hnan, hsign, hq, hm⟩ := powerOfTen_fields ⟨e, h⟩
  have hindex : Float.exactlyRepresentablePowersOfTen[(⟨e, h⟩ : Fin 23)] =
      Float.exactlyRepresentablePowersOfTen[e] := rfl
  rw [hindex] at hinf hnan hsign hq hm
  refine ⟨⟨hinf, hnan⟩, by rw [signOf, hsign]; rfl, ?_⟩
  generalize magnitudeOf Float.exactlyRepresentablePowersOfTen[e] = b at hq hm
  obtain ⟨k, hk⟩ : ∃ k : ℕ, b.q = k - 52 := ⟨(b.q + 52).toNat, by omega⟩
  rw [hk, sub_add_cancel, Int.toNat_natCast] at hm
  have hm : (b.m : ℚ) * 2 ^ k = 10 ^ e * 2 ^ 52 := by exact_mod_cast hm
  rw [Binary.value, hk, zpow_sub₀ (by norm_num), zpow_natCast, ← mul_div_assoc, hm]
  norm_num

/-! ## Scientific notation -/

theorem two_zpow_le_ten_zpow : (2 : ℚ) ^ (1088 : ℤ) ≤ 10 ^ (400 : ℤ) := by
  calc (2 : ℚ) ^ (1088 : ℤ) = (2 ^ 68) ^ (16 : ℤ) := by rw [← zpow_natCast, ← zpow_mul]; norm_num
    _ ≤ (10 ^ 25) ^ (16 : ℤ) := zpow_le_zpow_left₀ (by norm_num) (by norm_num) (by norm_num)
    _ = 10 ^ (400 : ℤ) := by rw [← zpow_natCast, ← zpow_mul]; norm_num

theorem limit_le_ten_zpow {e : ℤ} (h : 400 ≤ e) : limit ≤ 10 ^ e := by
  calc limit ≤ 2 ^ (54 : ℤ) * 2 ^ (970 : ℤ) := mul_le_mul_of_nonneg_right (by norm_num) (by positivity)
    _ = 2 ^ (1024 : ℤ) := by rw [← zpow_add₀ (by norm_num)]; norm_num
    _ ≤ 2 ^ (1088 : ℤ) := zpow_le_zpow_right₀ (by norm_num) (by norm_num)
    _ ≤ 10 ^ (400 : ℤ) := two_zpow_le_ten_zpow
    _ ≤ 10 ^ e := zpow_le_zpow_right₀ (by norm_num) h

theorem roundsTo_zero_of_le {v : ℚ} (s : UnpackedFloat.Sign) (hpos : 0 ≤ v) (h : v ≤ 10 ^ (-400 : ℤ)) :
    RoundsTo s v (.zero s) := by
  refine roundsTo_zero_of_lt s hpos ?_
  calc v * 2 ^ (1074 : ℤ) ≤ (10 ^ (400 : ℤ))⁻¹ * 2 ^ (1074 : ℤ) := by
        rw [← zpow_neg]
        exact mul_le_mul_of_nonneg_right h (by positivity)
    _ ≤ (2 ^ (1088 : ℤ))⁻¹ * 2 ^ (1074 : ℤ) :=
        mul_le_mul_of_nonneg_right (inv_anti₀ (by positivity) two_zpow_le_ten_zpow) (by positivity)
    _ = 2 ^ (-14 : ℤ) := by rw [← zpow_neg, ← zpow_add₀ (by norm_num)]; norm_num
    _ < 1 / 2 := by norm_num

/-- A positive integer scaled by a large power of ten is rounded to an infinity. -/
theorem rounded_of_large {m : ℕ} (hm : 0 < m) {e : ℤ} (he : 400 ≤ e) :
    Rounded .positive (m * 10 ^ e) (ofUnpacked (.infinity .positive)) := by
  have hone : (1 : ℚ) ≤ m := by exact_mod_cast hm
  apply rounded_infinity
  calc limit ≤ 10 ^ e := limit_le_ten_zpow he
    _ ≤ m * 10 ^ e := le_mul_of_one_le_left (by positivity) hone

/-- An integer of few digits scaled by a small power of ten is rounded to zero. -/
theorem rounded_of_small {m count : ℕ} (hm : m < 10 ^ count) {e : ℤ} (he : count + e ≤ -400) :
    Rounded .positive (m * 10 ^ e) (ofUnpacked (.zero .positive)) := by
  have hdigits : (m : ℚ) ≤ 10 ^ (count : ℤ) := by exact_mod_cast hm.le
  apply rounded_of_roundsTo
  apply roundsTo_zero_of_le _ (by positivity)
  calc (m : ℚ) * 10 ^ e ≤ 10 ^ (count : ℤ) * 10 ^ e := mul_le_mul_of_nonneg_right hdigits (by positivity)
    _ = 10 ^ (count + e) := by rw [← zpow_add₀ (by norm_num)]
    _ ≤ 10 ^ (-400 : ℤ) := zpow_le_zpow_right₀ (by norm_num) he

/-- A short number of a small exponent is one product or one quotient of doubles. -/
theorem rounded_ofScientific_of_short {m e : ℕ} (negative : Bool) (h : m < 2 ^ 53 ∧ e ≤ 22) :
    Rounded .positive (if negative then m / 10 ^ e else m * 10 ^ e) (Float.ofScientific m negative e) := by
  have hsize : e < Float.exactlyRepresentablePowersOfTen.size := by
    show e < 23
    omega
  have hm : m.toUInt64.toNat = m := UInt64.toNat_ofNat_of_lt' (by have : UInt64.size = 2 ^ 64 := rfl; omega)
  obtain ⟨hx, hxsign, hxvalue⟩ := toFloat_exact (n := m.toUInt64) (by omega)
  obtain ⟨hp, hpsign, hpvalue⟩ := powerOfTen_exact hsize
  rw [hm] at hxvalue
  unfold Float.ofScientific
  rw [dif_pos h]
  cases negative with
  | true =>
    have hpos : 0 < (magnitudeOf Float.exactlyRepresentablePowersOfTen[e]).m := by
      by_contra hzero
      rw [Binary.value_of_zero (by omega)] at hpvalue
      exact (by positivity : (10 : ℚ) ^ e ≠ 0) hpvalue.symm
    have hdiv := rounded_div hx hp hpos
    rw [hxsign, hpsign, hxvalue, hpvalue] at hdiv
    exact hdiv
  | false =>
    have hmul := rounded_mul hx hp
    rw [hxsign, hpsign, hxvalue, hpvalue] at hmul
    exact hmul

/-- With 53 zeros behind it, a factor leaves enough bits to a product. -/
theorem fine_shiftLeft_mul {m n : ℕ} (hm : 0 < m) (hn : 0 < n) (e : ℤ) : Fine (m <<< 53 * n) e := by
  have hwide : 2 ^ 52 ≤ m <<< 53 := by
    rw [Nat.shiftLeft_eq]
    omega
  generalize m <<< 53 = k at hwide ⊢
  exact .inl ((Nat.le_log2 (by positivity)).mpr (hwide.trans (Nat.le_mul_of_pos_right k hn)))

/-- The product with a power of ten, in the model. -/
theorem roundsTo_mul_ten_pow {m : ℕ} (hm : 0 < m) (k : ℕ) (hshift : 0 < m <<< 53) (hpower : 0 < 10 ^ k) :
    RoundsTo .positive (m * 10 ^ k)
      (mul .binary64 (.finite .positive (m <<< 53) (-53) hshift) (.finite .positive (10 ^ k) 0 hpower)) := by
  have hvalue : (m : ℚ) * (10 : ℚ) ^ k = (m <<< 53 : ℕ) * 2 ^ (-53 : ℤ) * ((10 ^ k : ℕ) * 2 ^ (0 : ℤ)) := by
    rw [Nat.shiftLeft_eq, zpow_zero, zpow_neg]
    push_cast
    field_simp
  rw [hvalue]
  exact roundsTo_mul hshift hpower (fine_shiftLeft_mul hm hpower _)

/-- The quotient by a power of ten, in the model. -/
theorem roundsTo_div_ten_pow {m : ℕ} (hm : 0 < m) (k : ℕ) (hpower : 0 < 10 ^ k) :
    RoundsTo .positive (m / 10 ^ k)
      (div .binary64 (.finite .positive m 0 hm) (.finite .positive (10 ^ k) 0 hpower)) := by
  have hvalue : (m : ℚ) / 10 ^ k = m * 2 ^ (0 : ℤ) / ((10 ^ k : ℕ) * 2 ^ (0 : ℤ)) := by
    rw [zpow_zero, mul_one, mul_one]
    push_cast
    rfl
  rw [hvalue]
  exact roundsTo_div hm hpower

/-- Scientific notation is rounded correctly in the model. -/
theorem rounded_ofUnpacked_ofScientific (m : ℕ) (e : ℤ) :
    Rounded .positive (m * 10 ^ e) (ofUnpacked (UnpackedFloat.ofScientific .binary64 m e)) := by
  unfold UnpackedFloat.ofScientific
  by_cases hzero : m = 0
  · rw [dif_pos hzero, hzero, Nat.cast_zero, zero_mul]
    exact rounded_of_roundsTo (roundsTo_zero _)
  · have hpos : 0 < m := Nat.pos_of_ne_zero hzero
    rw [dif_neg hzero]
    by_cases hlarge : e > 2 ^ Format.binary64.exponentBits
    · rw [if_pos hlarge]
      exact rounded_of_large hpos (by norm_num at hlarge; omega)
    rw [if_neg hlarge]
    by_cases hsmall : e < -(2 ^ Format.binary64.exponentBits + m.log2)
    · have hdigits : m < 10 ^ (m.log2 + 1) := Nat.lt_log2_self.trans_le (Nat.pow_le_pow_left (by norm_num) _)
      rw [if_pos hsmall]
      exact rounded_of_small hdigits (by norm_num at hsmall; push_cast; omega)
    rw [if_neg hsmall]
    by_cases hnonneg : 0 ≤ e
    · obtain ⟨k, rfl⟩ := Int.eq_ofNat_of_zero_le hnonneg
      rw [if_pos hnonneg, zpow_natCast]
      exact rounded_of_roundsTo (roundsTo_mul_ten_pow hpos k _ _)
    · have hpower : (-e).toNat = -e := Int.toNat_of_nonneg (by omega)
      have hvalue : (m : ℚ) * 10 ^ e = m / 10 ^ (-e).toNat := by
        rw [div_eq_mul_inv, ← zpow_natCast, ← zpow_neg, hpower, neg_neg]
      rw [if_neg hnonneg, hvalue]
      exact rounded_of_roundsTo (roundsTo_div_ten_pow hpos _ _)

/-- Scientific notation is rounded correctly. -/
theorem rounded_ofScientific (m : ℕ) (negative : Bool) (e : ℕ) :
    Rounded .positive (if negative then m / 10 ^ e else m * 10 ^ e) (Float.ofScientific m negative e) := by
  by_cases h : m < 2 ^ 53 ∧ e ≤ 22
  · exact rounded_ofScientific_of_short negative h
  · have hmodel := rounded_ofUnpacked_ofScientific m (if negative then Int.negOfNat e else Int.ofNat e)
    unfold Float.ofScientific
    rw [dif_neg h]
    cases negative with
    | true =>
      rw [if_pos rfl, Int.negOfNat_eq, zpow_neg, Int.ofNat_eq_natCast, zpow_natCast, ← div_eq_mul_inv] at hmodel
      exact hmodel
    | false =>
      rw [if_neg Bool.false_ne_true, Int.ofNat_eq_natCast, zpow_natCast] at hmodel
      exact hmodel

/-- An integer is rounded correctly. -/
theorem rounded_ofInt (n : ℤ) : Rounded (signIf (decide (n < 0))) n.natAbs (ofInt n) := by
  have hrounded := rounded_ofScientific n.natAbs false 0
  rw [if_neg Bool.false_ne_true, pow_zero, mul_one] at hrounded
  unfold ofInt
  by_cases hneg : n < 0
  · rw [if_pos hneg, decide_eq_true hneg]
    exact hrounded.neg
  · rw [if_neg hneg, decide_eq_false hneg]
    exact hrounded

/-! ## Numerals -/

theorem digitValue?_lt {c : Char} {d : ℕ} (h : Text.digitValue? c = some d) : d < 10 := by
  unfold Text.digitValue? at h
  split at h
  · split at h
    · cases h
      omega
    · cases h
  · obtain ⟨z, hz, rfl⟩ := Option.map_eq_some_iff.mp h
    have hrange := List.find?_some hz
    simp only [Bool.and_eq_true, decide_eq_true_eq] at hrange
    omega

theorem digitsFrom_lt (cs : List Char) (n : ℕ) :
    cs.foldl (fun n c => 10 * n + (Text.digitValue? c).getD 0) n < (n + 1) * 10 ^ cs.length := by
  induction cs generalizing n with
  | nil => simp
  | cons c cs ih =>
    have hdigit : (Text.digitValue? c).getD 0 < 10 := by
      cases hd : Text.digitValue? c with
      | none => norm_num
      | some d => exact digitValue?_lt hd
    rw [List.foldl_cons, List.length_cons, pow_succ']
    calc _ < (10 * n + (Text.digitValue? c).getD 0 + 1) * 10 ^ cs.length := ih _
      _ ≤ (n + 1) * 10 * 10 ^ cs.length := Nat.mul_le_mul_right _ (by omega)
      _ = (n + 1) * (10 * 10 ^ cs.length) := Nat.mul_assoc _ _ _

theorem digitsValue_lt (cs : List Char) : Text.digitsValue cs < 10 ^ cs.length := by
  have hlt := digitsFrom_lt cs 0
  rwa [Nat.zero_add, Nat.one_mul] at hlt

theorem zero_eq_ofUnpacked : (0.0 : Float) = ofUnpacked (.zero .positive) := by decide +kernel

theorem infinity_eq_ofUnpacked : Float.ofScientific 1 false 400 = ofUnpacked (.infinity .positive) := by
  decide +kernel

/-- A number of so many digits is rounded correctly whatever its exponent is. -/
theorem rounded_scaled {m count : ℕ} (hm : m < 10 ^ count) (e : ℤ) :
    Rounded .positive (m * 10 ^ e) (scaled m count e) := by
  unfold scaled
  rcases Nat.eq_zero_or_pos m with rfl | hpos
  · rw [Nat.cast_zero, zero_mul, zero_eq_ofUnpacked]
    exact rounded_of_roundsTo (roundsTo_zero _)
  · rw [if_neg (by simpa using hpos.ne')]
    split
    case isTrue hlarge =>
      rw [infinity_eq_ofUnpacked]
      exact rounded_of_large hpos (by omega)
    case isFalse =>
      split
      case isTrue hsmall =>
        rw [zero_eq_ofUnpacked]
        exact rounded_of_small hm (by omega)
      case isFalse =>
        have hrounded := rounded_ofScientific m (decide (e < 0)) e.natAbs
        rcases lt_or_ge e 0 with he | he
        · obtain ⟨k, rfl⟩ : ∃ k : ℕ, e = -k := ⟨e.natAbs, by omega⟩
          rw [if_pos (decide_eq_true he), Int.natAbs_neg, Int.natAbs_natCast] at hrounded
          rw [zpow_neg, zpow_natCast, ← div_eq_mul_inv, Int.natAbs_neg, Int.natAbs_natCast]
          exact hrounded
        · obtain ⟨k, rfl⟩ := Int.eq_ofNat_of_zero_le he
          rw [if_neg (by simp), Int.natAbs_natCast] at hrounded
          rw [zpow_natCast, Int.natAbs_natCast]
          exact hrounded

/-- The value of a numeral. -/
def Numeral.value (n : Numeral) : ℚ :=
  Text.digitsValue (n.whole ++ n.fraction) * 10 ^ (n.power - n.fraction.length)

/-- A numeral is read as its correctly rounded value. -/
theorem Numeral.rounded_toFloat (n : Numeral) : Rounded .positive n.value n.toFloat :=
  rounded_scaled (digitsValue_lt _) _

end AdhocReport.Decimal
