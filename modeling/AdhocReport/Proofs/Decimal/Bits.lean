import AdhocReport.Decimal.Notation
import AdhocReport.Proofs.Decimal.Shortest
set_option autoImplicit false

/-!
# The bits of a double

A double is known by its bits: a sign, an exponent of eleven bits and a fraction of fifty-two.  The
magnitude of a finite double determines its exponent and its fraction; the infinities have a sign and
nothing more, and there is one number that is none.
-/

namespace AdhocReport.Decimal

theorem eq_of_toBits {x y : Float} (h : x.toBits = y.toBits) : x = y := by
  obtain ⟨⟨bits, hvalid⟩⟩ := x
  obtain ⟨⟨bits', hvalid'⟩⟩ := y
  cases h
  rfl

/-! ## Fields -/

theorem exponent_field (bits : UInt64) :
    ((bits >>> 52) &&& 0x7FF).toNat = bits.toNat / 2 ^ 52 % 2 ^ 11 := by
  rw [UInt64.toNat_and, UInt64.toNat_shiftRight]
  show bits.toNat >>> 52 &&& (2 ^ 11 - 1) = _
  rw [Nat.and_two_pow_sub_one_eq_mod, Nat.shiftRight_eq_div_pow]

theorem fraction_field (bits : UInt64) :
    (bits &&& 0xFFFFFFFFFFFFF).toNat = bits.toNat % 2 ^ 52 := by
  rw [UInt64.toNat_and]
  show bits.toNat &&& (2 ^ 52 - 1) = _
  rw [Nat.and_two_pow_sub_one_eq_mod]

theorem isNegative_iff (x : Float) : isNegative x = true ↔ x.toBits.toNat / 2 ^ 63 = 1 := by
  rw [isNegative, beq_iff_eq, ← UInt64.toNat_inj, UInt64.toNat_shiftRight]
  show x.toBits.toNat >>> 63 = 1 ↔ _
  rw [Nat.shiftRight_eq_div_pow]

/-- The sign and the other bits make up the bits. -/
theorem eq_of_sign_and_rest {x y : Float} (hsign : isNegative x = isNegative y)
    (hrest : x.toBits.toNat % 2 ^ 63 = y.toBits.toNat % 2 ^ 63) : x = y := by
  apply eq_of_toBits
  rw [← UInt64.toNat_inj]
  have hx := isNegative_iff x
  have hy := isNegative_iff y
  rw [hsign] at hx
  have hsame := hx.symm.trans hy
  have := x.toBits.toNat_lt
  have := y.toBits.toNat_lt
  omega

/-! ## Magnitudes -/

theorem ofBits_eq (bits : UInt64) : Binary.ofBits bits =
    if bits.toNat / 2 ^ 52 % 2 ^ 11 = 0 then ⟨bits.toNat % 2 ^ 52, -1074, false⟩
    else ⟨2 ^ 52 + bits.toNat % 2 ^ 52, ((bits.toNat / 2 ^ 52 % 2 ^ 11 : ℕ) : ℤ) - 1075,
      decide (bits.toNat % 2 ^ 52 = 0 ∧ 1 < bits.toNat / 2 ^ 52 % 2 ^ 11)⟩ := by
  unfold Binary.ofBits
  simp only [exponent_field, fraction_field, beq_iff_eq, Bool.decide_and]
  split
  · rfl
  · rfl

theorem ofBits_regular (bits : UInt64) : (Binary.ofBits bits).Regular := by
  rw [ofBits_eq]
  have hfraction : bits.toNat % 2 ^ 52 < 2 ^ 52 := Nat.mod_lt _ (by norm_num)
  generalize bits.toNat % 2 ^ 52 = f at *
  generalize bits.toNat / 2 ^ 52 % 2 ^ 11 = e at *
  split
  · refine ⟨?_, ?_, fun _ => rfl, ?_, ?_⟩
    · show f < 2 ^ 53
      omega
    · exact Int.le_refl _
    · intro h
      exact absurd h (Int.lt_irrefl _)
    · intro h
      exact absurd h (Int.lt_irrefl _)
  · rename_i hnormal
    refine ⟨?_, ?_, ?_, ?_, ?_⟩
    · show 2 ^ 52 + f < 2 ^ 53
      omega
    · show (-1074 : ℤ) ≤ e - 1075
      omega
    · intro (h : (e : ℤ) - 1075 = -1074)
      simp only [decide_eq_false_iff_not, not_and]
      intro _
      omega
    · intro _
      exact Nat.le_add_right _ _
    · intro (h : (-1074 : ℤ) < e - 1075)
      simp only [decide_eq_true_eq]
      omega

/-- The magnitude of a double determines all of its bits but the sign. -/
theorem eq_of_ofBits {a b : UInt64} (h : Binary.ofBits a = Binary.ofBits b) :
    a.toNat % 2 ^ 63 = b.toNat % 2 ^ 63 := by
  rw [ofBits_eq, ofBits_eq] at h
  have hfraction : a.toNat % 2 ^ 52 < 2 ^ 52 := Nat.mod_lt _ (by norm_num)
  have hfraction' : b.toNat % 2 ^ 52 < 2 ^ 52 := Nat.mod_lt _ (by norm_num)
  have hfields : a.toNat % 2 ^ 52 = b.toNat % 2 ^ 52 ∧
      a.toNat / 2 ^ 52 % 2 ^ 11 = b.toNat / 2 ^ 52 % 2 ^ 11 := by
    split at h
    · split at h
      · simp only [Binary.mk.injEq] at h
        omega
      · simp only [Binary.mk.injEq] at h
        omega
    · split at h
      · simp only [Binary.mk.injEq] at h
        omega
      · simp only [Binary.mk.injEq] at h
        omega
  omega

/-! ## What is not finite -/

open Float.Model Float.Model.UnpackedFloat in
theorem unpackExponent_toNat (bits : BitVec 64) :
    (@unpackExponent .binary64 bits).toNat = bits.toNat / 2 ^ 52 % 2 ^ 11 := by
  simp [unpackExponent, BitVec.extractLsb, Nat.shiftRight_eq_div_pow]

open Float.Model Float.Model.UnpackedFloat in
theorem unpackMantissa_toNat (bits : BitVec 64) :
    (@unpackMantissa .binary64 bits).toNat = bits.toNat % 2 ^ 52 := by
  simp [unpackMantissa, BitVec.extractLsb]

open Float.Model Float.Model.UnpackedFloat in
/-- Only an exponent of ones stands for an infinity or for no number. -/
theorem unpack_of_not_ones {bits : BitVec 64} (h : @unpackExponent .binary64 bits ≠ -1#_) :
    (UnpackedFloat.unpack .binary64 bits).isInf = false ∧
      (UnpackedFloat.unpack .binary64 bits).isNaN = false := by
  unfold UnpackedFloat.unpack
  dsimp only
  rw [if_neg h]
  by_cases hzero : @unpackExponent .binary64 bits = 0#_
  · rw [if_pos hzero]
    by_cases hempty : @unpackMantissa .binary64 bits = 0#_
    · rw [dif_pos hempty]
      exact ⟨rfl, rfl⟩
    · rw [dif_neg hempty]
      exact ⟨rfl, rfl⟩
  · rw [if_neg hzero]
    exact ⟨rfl, rfl⟩

open Float.Model Float.Model.UnpackedFloat in
theorem unpack_of_ones {bits : BitVec 64} (h : @unpackExponent .binary64 bits = -1#_) :
    ((UnpackedFloat.unpack .binary64 bits).isInf = true → @unpackMantissa .binary64 bits = 0#_) ∧
      ((UnpackedFloat.unpack .binary64 bits).isNaN = true → @unpackMantissa .binary64 bits ≠ 0#_) := by
  unfold UnpackedFloat.unpack
  dsimp only
  rw [if_pos h]
  by_cases hempty : @unpackMantissa .binary64 bits = 0#_
  · rw [if_pos hempty]
    exact ⟨fun _ => hempty, fun hnone => Bool.noConfusion hnone⟩
  · rw [if_neg hempty]
    exact ⟨fun hinfinite => Bool.noConfusion hinfinite, fun _ => hempty⟩

open Float.Model.UnpackedFloat in
/-- The infinities differ in their signs only. -/
theorem rest_of_isInf {x : Float} (h : x.isInf = true) :
    x.toBits.toNat % 2 ^ 63 = 2047 * 2 ^ 52 := by
  have hinfinite : (unpack .binary64 x.toBits.toBitVec).isInf = true := h
  have hexponent := unpackExponent_toNat x.toBits.toBitVec
  have hfraction := unpackMantissa_toNat x.toBits.toBitVec
  by_cases hones : @unpackExponent .binary64 x.toBits.toBitVec = -1#_
  · rw [hones] at hexponent
    rw [(unpack_of_ones hones).1 hinfinite] at hfraction
    have hexponent : 2047 = x.toBits.toNat / 2 ^ 52 % 2 ^ 11 := hexponent
    have hfraction : 0 = x.toBits.toNat % 2 ^ 52 := hfraction
    omega
  · rw [(unpack_of_not_ones hones).1] at hinfinite
    cases hinfinite

open Float.Model.UnpackedFloat in
theorem toBits_of_isNaN {x : Float} (h : x.isNaN = true) :
    x.toBits.toBitVec = packedNaN .binary64 := by
  have hnone : (unpack .binary64 x.toBits.toBitVec).isNaN = true := h
  by_cases hones : @unpackExponent .binary64 x.toBits.toBitVec = -1#_
  · exact x.toModel.valid.eq_packedNaN hones ((unpack_of_ones hones).2 hnone)
  · rw [(unpack_of_not_ones hones).2] at hnone
    cases hnone

/-- There is one number that is none. -/
theorem eq_of_isNaN {x y : Float} (h : x.isNaN = true) (h' : y.isNaN = true) : x = y := by
  apply eq_of_toBits
  rw [← UInt64.toBitVec_inj, toBits_of_isNaN h, toBits_of_isNaN h']

end AdhocReport.Decimal
