import AdhocReport.Proofs.Decimal.Bits
import AdhocReport.Proofs.Decimal.Rounding
set_option autoImplicit false

/-!
# Correctly rounded doubles

A double is packed from a sign and a magnitude, and unpacked into them again; a magnitude whose exponent is
too large is packed into an infinity.  So the products, the quotients and the integers of the doubles are
correctly rounded: what lies below the limit becomes the double whose interval it lies in, and the rest
becomes an infinity.
-/

namespace AdhocReport.Decimal

open Float.Model Float.Model.UnpackedFloat

/-! ## Packed bits -/

/-- The bit of a sign. -/
def signBit : UnpackedFloat.Sign → ℕ
  | .positive => 0
  | .negative => 1

theorem packComponents_toNat (s : UnpackedFloat.Sign) (exponent : BitVec 11) (fraction : BitVec 52) :
    (packComponents .binary64 s exponent fraction).toNat =
      signBit s * 2 ^ 63 + exponent.toNat * 2 ^ 52 + fraction.toNat := by
  have hsign : s.toBitVec.toNat = signBit s := by cases s <;> rfl
  unfold packComponents
  rw [BitVec.toNat_append, BitVec.toNat_append, ← Nat.shiftLeft_add_eq_or_of_lt fraction.isLt,
    ← Nat.shiftLeft_add_eq_or_of_lt exponent.isLt, hsign, Nat.shiftLeft_eq, Nat.shiftLeft_eq]
  show (signBit s * 2 ^ 11 + exponent.toNat) * 2 ^ 52 + fraction.toNat = _
  ring

/-- The double of an unpacked float. -/
def ofUnpacked (u : UnpackedFloat) : Float := .ofModel (.pack u)

theorem toBits_ofUnpacked (u : UnpackedFloat) : (ofUnpacked u).toBits.toNat = (pack .binary64 u).toNat := rfl

/-- The double is a number. -/
structure IsFinite (x : Float) : Prop where
  isInf : x.isInf = false
  isNaN : x.isNaN = false

theorem isFinite_of_exponent {x : Float} (h : x.toBits.toNat / 2 ^ 52 % 2 ^ 11 ≠ 2047) : IsFinite x := by
  have hones : @unpackExponent .binary64 x.toBits.toBitVec ≠ -1#_ := by
    intro hones
    have hexponent := unpackExponent_toNat x.toBits.toBitVec
    rw [hones] at hexponent
    exact h hexponent.symm
  obtain ⟨hinf, hnan⟩ := unpack_of_not_ones hones
  exact ⟨hinf, hnan⟩

/-- The sign of what is written with a minus sign or without it. -/
def signIf (negative : Bool) : UnpackedFloat.Sign := if negative then .negative else .positive

/-- The sign of a double. -/
def signOf (x : Float) : UnpackedFloat.Sign := signIf (isNegative x)

theorem signOf_of_toBits {x : Float} {s : UnpackedFloat.Sign} (h : x.toBits.toNat / 2 ^ 63 = signBit s) :
    signOf x = s := by
  have hneg := isNegative_iff x
  rw [h] at hneg
  unfold signOf signIf
  cases s with
  | positive => rw [if_neg (by simp [hneg, signBit])]
  | negative => rw [if_pos (hneg.mpr rfl)]

/-- The magnitude of a finite double. -/
def magnitudeOf (x : Float) : Binary := .ofBits x.toBits

theorem magnitudeOf_regular (x : Float) : (magnitudeOf x).Regular := ofBits_regular x.toBits

/-- The double with these fields. -/
theorem double_of_fields {x : Float} {s : UnpackedFloat.Sign} {e f : ℕ}
    (hbits : x.toBits.toNat = signBit s * 2 ^ 63 + e * 2 ^ 52 + f) (he : e < 2047) (hf : f < 2 ^ 52) :
    IsFinite x ∧ signOf x = s ∧
      magnitudeOf x = if e = 0 then .make f (-1074) else .make (2 ^ 52 + f) (e - 1075) := by
  have hexponent : x.toBits.toNat / 2 ^ 52 % 2 ^ 11 = e := by
    rw [hbits]
    cases s <;> simp only [signBit] <;> omega
  have hfraction : x.toBits.toNat % 2 ^ 52 = f := by
    rw [hbits]
    cases s <;> simp only [signBit] <;> omega
  have hsign : x.toBits.toNat / 2 ^ 63 = signBit s := by
    rw [hbits]
    cases s <;> simp only [signBit] <;> omega
  refine ⟨isFinite_of_exponent (by omega), signOf_of_toBits hsign, ?_⟩
  have hmake := (magnitudeOf_regular x).eq_make
  have hfields := ofBits_eq x.toBits
  rw [hexponent, hfraction] at hfields
  rw [hmake, magnitudeOf, hfields]
  split
  · rfl
  · rfl

/-- What a nonzero regular magnitude is packed into, by its exponent. -/
theorem pack_signed {b : Binary} (hb : b.Regular) (hpos : 0 < b.m) (s : UnpackedFloat.Sign) :
    pack .binary64 (b.signed s) =
      if 972 ≤ b.q then packedInfinity .binary64 s
      else if 2 ^ 52 ≤ b.m then packComponents .binary64 s (.ofNat _ (b.q + 1075).toNat) (.ofNat _ b.m)
      else packComponents .binary64 s 0#_ (.ofNat _ b.m) := by
  have hexponent := hb.exponent
  have hmantissa := hb.mantissa
  have hlog : b.m.log2 + 1 = 1 + 52 ↔ 2 ^ 52 ≤ b.m := by
    have hlog := Nat.log2_eq_iff (k := 52) hpos.ne'
    omega
  have hbias : (b.q + (Format.binary64.exponentBias : ℤ) + (52 : ℕ)).toNat = (b.q + 1075).toNat := by
    simp only [Format.exponentBias]
    norm_num
    omega
  have hlimit : 2 ^ 11 ≤ (b.q + 1075).toNat + 1 ↔ 972 ≤ b.q := by omega
  rw [Binary.signed, dif_neg hpos.ne']
  show (if 2 ^ 11 ≤ (b.q + (Format.binary64.exponentBias : ℤ) + (52 : ℕ)).toNat + 1 then packedInfinity .binary64 s
    else if b.m.log2 + 1 = 1 + 52 then
      packComponents .binary64 s (.ofNat _ (b.q + (Format.binary64.exponentBias : ℤ) + (52 : ℕ)).toNat) (.ofNat _ b.m)
    else packComponents .binary64 s 0#_ (.ofNat _ b.m)) = _
  simp only [hbias, hlimit, hlog]

/-- A regular magnitude is packed into a double that has it. -/
theorem ofUnpacked_signed {b : Binary} (hb : b.Regular) (hq : b.q ≤ 971) (s : UnpackedFloat.Sign) :
    IsFinite (ofUnpacked (b.signed s)) ∧ signOf (ofUnpacked (b.signed s)) = s ∧
      magnitudeOf (ofUnpacked (b.signed s)) = b := by
  have hmantissa := hb.mantissa
  have hexponent := hb.exponent
  have hnormal := hb.normal
  obtain ⟨e, f, hbits, he, hf, hmake⟩ : ∃ e f, (ofUnpacked (b.signed s)).toBits.toNat =
      signBit s * 2 ^ 63 + e * 2 ^ 52 + f ∧ e < 2047 ∧ f < 2 ^ 52 ∧
      b = if e = 0 then .make f (-1074) else .make (2 ^ 52 + f) (e - 1075) := by
    rw [toBits_ofUnpacked]
    rcases Nat.eq_zero_or_pos b.m with hzero | hpos
    · refine ⟨0, 0, ?_, by norm_num, by norm_num, ?_⟩
      · rw [Binary.signed, dif_pos hzero]
        exact packComponents_toNat s 0 0
      · rw [if_pos rfl, hb.eq_make, hzero, show b.q = -1074 by omega]
    · rw [pack_signed hb hpos, if_neg (by omega)]
      by_cases hwide : 2 ^ 52 ≤ b.m
      · refine ⟨(b.q + 1075).toNat, b.m - 2 ^ 52, ?_, by omega, by omega, ?_⟩
        · rw [if_pos hwide, packComponents_toNat, BitVec.toNat_ofNat, BitVec.toNat_ofNat]
          show _ + (b.q + 1075).toNat % 2 ^ 11 * 2 ^ 52 + b.m % 2 ^ 52 = _
          omega
        · rw [if_neg (by omega), Nat.add_sub_cancel' hwide, Int.toNat_of_nonneg (by omega), add_sub_cancel_right]
          exact hb.eq_make
      · refine ⟨0, b.m, ?_, by norm_num, by omega, ?_⟩
        · rw [if_neg hwide, packComponents_toNat, BitVec.toNat_ofNat]
          show _ + 0 * 2 ^ 52 + b.m % 2 ^ 52 = _
          omega
        · rw [if_pos rfl, show (-1074 : ℤ) = b.q by omega]
          exact hb.eq_make
  obtain ⟨hfinite, hsign, hmagnitude⟩ := double_of_fields hbits he hf
  exact ⟨hfinite, hsign, hmagnitude.trans hmake.symm⟩

theorem ofUnpacked_infinity (s : UnpackedFloat.Sign) :
    (ofUnpacked (.infinity s)).isInf = true ∧ (ofUnpacked (.infinity s)).isNaN = false ∧
      signOf (ofUnpacked (.infinity s)) = s := by
  cases s <;> exact ⟨rfl, rfl, rfl⟩

/-! ## Unpacked doubles -/

theorem unpackSign_toNat (bits : BitVec 64) : (@unpackSign .binary64 bits).toNat = bits.toNat / 2 ^ 63 := by
  have hlt := bits.isLt
  have hsign : (@unpackSign .binary64 bits).toNat = bits.toNat / 2 ^ 63 % 2 := by
    show ((bits.extractLsb 63 63).cast _).toNat = _
    simp [BitVec.extractLsb, Nat.shiftRight_eq_div_pow]
  omega

theorem ofBitVec_unpackSign (x : Float) :
    UnpackedFloat.Sign.ofBitVec (@unpackSign .binary64 x.toBits.toBitVec) = signOf x := by
  have hsign := unpackSign_toNat x.toBits.toBitVec
  have hneg := isNegative_iff x
  have hzero : @unpackSign .binary64 x.toBits.toBitVec = 0#1 ↔ ¬ isNegative x = true := by
    rw [hneg, ← BitVec.toNat_inj, hsign]
    have := x.toBits.toNat_lt
    show x.toBits.toNat / 2 ^ 63 = 0 ↔ _
    omega
  unfold UnpackedFloat.Sign.ofBitVec signOf signIf
  by_cases hnegative : isNegative x = true
  · rw [if_pos hnegative, if_neg (fun h => hzero.mp h hnegative)]
  · rw [if_neg hnegative, if_pos (hzero.mpr hnegative)]

theorem finite_eq {s : UnpackedFloat.Sign} {m m' : ℕ} {e e' : ℤ} {h : 0 < m} {h' : 0 < m'} (hm : m = m')
    (he : e = e') :
    UnpackedFloat.finite s m e h = .finite s m' e' h' := by
  subst hm he
  rfl

theorem not_ones_of_isFinite {x : Float} (h : IsFinite x) : @unpackExponent .binary64 x.toBits.toBitVec ≠ -1#_ := by
  intro hones
  have hinf : (UnpackedFloat.unpack .binary64 x.toBits.toBitVec).isInf = false := h.isInf
  have hnan : (UnpackedFloat.unpack .binary64 x.toBits.toBitVec).isNaN = false := h.isNaN
  unfold UnpackedFloat.unpack at hinf hnan
  dsimp only at hinf hnan
  rw [if_pos hones] at hinf hnan
  by_cases hfraction : @unpackMantissa .binary64 x.toBits.toBitVec = 0#_
  · rw [if_pos hfraction] at hinf
    cases hinf
  · rw [if_neg hfraction] at hnan
    cases hnan

/-- A finite double is unpacked into its sign and its magnitude. -/
theorem unpack_of_isFinite {x : Float} (h : IsFinite x) : x.toModel.unpack = (magnitudeOf x).signed (signOf x) := by
  have hexponent : (@unpackExponent .binary64 x.toBits.toBitVec).toNat = x.toBits.toNat / 2 ^ 52 % 2 ^ 11 :=
    unpackExponent_toNat x.toBits.toBitVec
  have hfraction : (@unpackMantissa .binary64 x.toBits.toBitVec).toNat = x.toBits.toNat % 2 ^ 52 :=
    unpackMantissa_toNat x.toBits.toBitVec
  show UnpackedFloat.unpack .binary64 x.toBits.toBitVec = _
  unfold UnpackedFloat.unpack
  dsimp only
  rw [ofBitVec_unpackSign, if_neg (not_ones_of_isFinite h), magnitudeOf, ofBits_eq, ← hexponent, ← hfraction]
  by_cases hleast : @unpackExponent .binary64 x.toBits.toBitVec = 0#_
  · have hzero : (@unpackExponent .binary64 x.toBits.toBitVec).toNat = 0 := by rw [hleast]; rfl
    rw [if_pos hleast, if_pos hzero]
    by_cases hempty : @unpackMantissa .binary64 x.toBits.toBitVec = 0#_
    · have hm : (@unpackMantissa .binary64 x.toBits.toBitVec).toNat = 0 := by rw [hempty]; rfl
      rw [dif_pos hempty, Binary.signed, dif_pos hm]
    · have hm : (@unpackMantissa .binary64 x.toBits.toBitVec).toNat ≠ 0 := by
        rw [← BitVec.toNat_inj] at hempty
        exact hempty
      rw [dif_neg hempty, Binary.signed, dif_neg hm]
      refine finite_eq rfl ?_
      rw [hzero]
      simp [Format.exponentBias]
  · have hpos : (@unpackExponent .binary64 x.toBits.toBitVec).toNat ≠ 0 := by
      rw [← BitVec.toNat_inj] at hleast
      exact hleast
    have hne : 2 ^ 52 + (@unpackMantissa .binary64 x.toBits.toBitVec).toNat ≠ 0 := by positivity
    rw [if_neg hleast, if_neg hpos, Binary.signed, dif_neg hne]
    refine finite_eq ?_ ?_
    · rw [BitVec.toNat_append, ← Nat.shiftLeft_add_eq_or_of_lt (BitVec.isLt _)]
      rfl
    · simp [Format.exponentBias]

/-! ## Correct rounding -/

/-- The least number that is too large for a double: half a step above the greatest one. -/
def limit : ℚ := (2 ^ 54 - 1) * 2 ^ (970 : ℤ)

/-- The double is the correctly rounded number of this sign and this magnitude. -/
structure Rounded (s : UnpackedFloat.Sign) (v : ℚ) (x : Float) : Prop where
  sign : signOf x = s
  isNaN : x.isNaN = false
  isInf : x.isInf = true ↔ limit ≤ v
  within : v < limit → (magnitudeOf x).Within v

theorem Rounded.isFinite {s : UnpackedFloat.Sign} {v : ℚ} {x : Float} (h : Rounded s v x) (hv : v < limit) :
    IsFinite x :=
  ⟨Bool.eq_false_iff.mpr fun hinf => (h.isInf.mp hinf).not_gt hv, h.isNaN⟩

/-- The magnitudes below the limit are those whose exponents a double has. -/
theorem Binary.Within.lt_limit_iff {b : Binary} {v : ℚ} (h : b.Within v) (hb : b.Regular) :
    v < limit ↔ b.q ≤ 971 := by
  constructor
  · intro hv
    by_contra hq
    have hscale : (2 : ℚ) ^ (970 : ℤ) ≤ 2 ^ (b.q - 2) := zpow_le_zpow_right₀ (by norm_num) (by omega)
    have hle : limit ≤ v := by
      calc limit ≤ (2 ^ 54 - 1) * (2 : ℚ) ^ (b.q - 2) := mul_le_mul_of_nonneg_left hscale (by norm_num)
        _ ≤ b.low := hb.le_low (by omega)
        _ ≤ v := (within_le h).1
    exact hle.not_gt hv
  · intro hq
    have hscale : 2 * (2 : ℚ) ^ (b.q - 2) ≤ 2 ^ (970 : ℤ) := by
      rw [← zpow_one_add₀ (by norm_num)]
      exact zpow_le_zpow_right₀ (by norm_num) (by omega)
    calc v < (2 ^ 55 - 2) * (2 : ℚ) ^ (b.q - 2) := h.lt_top hb
      _ = (2 ^ 54 - 1) * (2 * (2 : ℚ) ^ (b.q - 2)) := by ring
      _ ≤ limit := mul_le_mul_of_nonneg_left hscale (by norm_num)

/-- What reaches the limit is rounded to an infinity. -/
theorem rounded_infinity {v : ℚ} (s : UnpackedFloat.Sign) (h : limit ≤ v) :
    Rounded s v (ofUnpacked (.infinity s)) := by
  obtain ⟨hinf, hnan, hsign⟩ := ofUnpacked_infinity s
  exact ⟨hsign, hnan, ⟨fun _ => h, fun _ => hinf⟩, fun hlt => absurd h hlt.not_ge⟩

theorem rounded_of_finite {s : UnpackedFloat.Sign} {v : ℚ} {x : Float} (hx : IsFinite x) (hsign : signOf x = s)
    (hwithin : (magnitudeOf x).Within v) (hv : v < limit) : Rounded s v x := by
  refine ⟨hsign, hx.isNaN, ?_, fun _ => hwithin⟩
  rw [hx.isInf]
  exact ⟨fun h => Bool.noConfusion h, fun h => absurd hv h.not_gt⟩

theorem rounded_of_roundsTo {s : UnpackedFloat.Sign} {v : ℚ} {u : UnpackedFloat} (h : RoundsTo s v u) :
    Rounded s v (ofUnpacked u) := by
  obtain ⟨b, hregular, hwithin, rfl⟩ := h
  have hlimit := hwithin.lt_limit_iff hregular
  rcases le_or_gt b.q 971 with hq | hq
  · obtain ⟨hfinite, hsign, hmagnitude⟩ := ofUnpacked_signed hregular hq s
    rw [← hmagnitude] at hwithin
    exact rounded_of_finite hfinite hsign hwithin (hlimit.mpr hq)
  · have hpos : 0 < b.m := by
      have := hregular.normal (by omega)
      omega
    have hpack : ofUnpacked (b.signed s) = ofUnpacked (.infinity s) := by
      apply eq_of_toBits
      rw [← UInt64.toNat_inj, toBits_ofUnpacked, toBits_ofUnpacked, pack_signed hregular hpos, if_pos (by omega)]
      rfl
    rw [hpack]
    exact rounded_infinity s (not_lt.mp fun hv => absurd (hlimit.mp hv) (by omega))

/-! ## Operations -/

theorem signed_of_zero {b : Binary} (h : b.m = 0) (s : UnpackedFloat.Sign) : b.signed s = .zero s := dif_pos h

theorem signed_of_pos {b : Binary} (h : 0 < b.m) (s : UnpackedFloat.Sign) :
    b.signed s = .finite s b.m b.q h := dif_neg h.ne'

/-- What lies below half of the least double is rounded to zero. -/
theorem roundsTo_zero_of_lt {v : ℚ} (s : UnpackedFloat.Sign) (hpos : 0 ≤ v) (h : v * 2 ^ (1074 : ℤ) < 1 / 2) :
    RoundsTo s v (.zero s) := by
  refine ⟨.make 0 (-1074), Binary.regular_make (by norm_num) le_rfl fun h => absurd h (lt_irrefl _), ?_, rfl⟩
  have hvalue : v = v * 2 ^ (1074 : ℤ) * 2 ^ (-1074 : ℤ) := by
    rw [mul_assoc, ← zpow_add₀ (by norm_num), add_neg_cancel, zpow_zero, mul_one]
  have hscaled : 0 ≤ v * 2 ^ (1074 : ℤ) := by positivity
  rw [hvalue]
  generalize v * 2 ^ (1074 : ℤ) = u at h hscaled ⊢
  have hrounds : Rounds u 0 := ⟨.inl (by push_cast; linarith), .inl (by push_cast; linarith)⟩
  exact Binary.within_make hrounds hscaled fun h => absurd h (by norm_num)

theorem roundsTo_zero (s : UnpackedFloat.Sign) : RoundsTo s 0 (.zero s) :=
  roundsTo_zero_of_lt s le_rfl (by rw [zero_mul]; norm_num)

/-- The value of a magnitude. -/
def Binary.value (b : Binary) : ℚ := b.m * 2 ^ b.q

theorem Binary.value_of_zero {b : Binary} (h : b.m = 0) : b.value = 0 := by
  rw [value, h, Nat.cast_zero, zero_mul]

/-- A product has enough bits, or is too small to need them. -/
theorem fine_mul {a b : Binary} (ha : a.Regular) (hb : b.Regular) (hapos : 0 < a.m) (hbpos : 0 < b.m) :
    Fine (a.m * b.m) (a.q + b.q) := by
  have haleast := ha.exponent
  have hbleast := hb.exponent
  have hwide : 2 ^ 52 ≤ a.m * b.m → Fine (a.m * b.m) (a.q + b.q) := fun h =>
    .inl ((Nat.le_log2 (by omega)).mpr h)
  rcases haleast.eq_or_lt with hasub | hanormal
  · rcases hbleast.eq_or_lt with hbsub | hbnormal
    · exact .inr (by omega)
    · exact hwide ((hb.normal hbnormal).trans (Nat.le_mul_of_pos_left _ hapos))
  · exact hwide ((ha.normal hanormal).trans (Nat.le_mul_of_pos_right _ hbpos))

theorem roundsTo_mul_signed {a b : Binary} (ha : a.Regular) (hb : b.Regular) (s t : UnpackedFloat.Sign) :
    RoundsTo (s * t) (a.value * b.value) (mul .binary64 (a.signed s) (b.signed t)) := by
  rcases Nat.eq_zero_or_pos a.m with hazero | hapos
  · rw [signed_of_zero hazero, Binary.value_of_zero hazero, zero_mul]
    rcases Nat.eq_zero_or_pos b.m with hbzero | hbpos
    · rw [signed_of_zero hbzero]
      exact roundsTo_zero _
    · rw [signed_of_pos hbpos]
      exact roundsTo_zero _
  · rw [signed_of_pos hapos]
    rcases Nat.eq_zero_or_pos b.m with hbzero | hbpos
    · rw [signed_of_zero hbzero, Binary.value_of_zero hbzero, mul_zero]
      exact roundsTo_zero _
    · rw [signed_of_pos hbpos]
      exact roundsTo_mul hapos hbpos (fine_mul ha hb hapos hbpos)

theorem roundsTo_div_signed {a b : Binary} (hbpos : 0 < b.m) (s t : UnpackedFloat.Sign) :
    RoundsTo (s / t) (a.value / b.value) (div .binary64 (a.signed s) (b.signed t)) := by
  rw [signed_of_pos hbpos]
  rcases Nat.eq_zero_or_pos a.m with hazero | hapos
  · rw [signed_of_zero hazero, Binary.value_of_zero hazero, zero_div]
    exact roundsTo_zero _
  · rw [signed_of_pos hapos]
    exact roundsTo_div hapos hbpos

/-- Multiplication rounds the product correctly. -/
theorem rounded_mul {x y : Float} (hx : IsFinite x) (hy : IsFinite y) :
    Rounded (signOf x * signOf y) ((magnitudeOf x).value * (magnitudeOf y).value) (x * y) := by
  have hproduct : x * y = ofUnpacked (mul .binary64 x.toModel.unpack y.toModel.unpack) := rfl
  rw [hproduct, unpack_of_isFinite hx, unpack_of_isFinite hy]
  exact rounded_of_roundsTo (roundsTo_mul_signed (magnitudeOf_regular x) (magnitudeOf_regular y) _ _)

/-- Division rounds the quotient correctly. -/
theorem rounded_div {x y : Float} (hx : IsFinite x) (hy : IsFinite y) (hpos : 0 < (magnitudeOf y).m) :
    Rounded (signOf x / signOf y) ((magnitudeOf x).value / (magnitudeOf y).value) (x / y) := by
  have hquotient : x / y = ofUnpacked (div .binary64 x.toModel.unpack y.toModel.unpack) := rfl
  rw [hquotient, unpack_of_isFinite hx, unpack_of_isFinite hy]
  exact rounded_of_roundsTo (roundsTo_div_signed hpos _ _)

/-- An integer is rounded correctly. -/
theorem rounded_toFloat (n : UInt64) : Rounded .positive n.toNat n.toFloat := by
  have hdouble : n.toFloat = ofUnpacked (UnpackedFloat.normalize .binary64 (n.toNat : ℤ) 0 .positive) := rfl
  rw [hdouble]
  apply rounded_of_roundsTo
  generalize n.toNat = k
  unfold UnpackedFloat.normalize
  rcases Nat.eq_zero_or_pos k with rfl | hpos
  · exact roundsTo_zero _
  · rw [Int.compare_eq_gt.mpr (by omega)]
    have hround := roundsTo_round .positive 0 hpos
    rwa [zpow_zero, mul_one] at hround

theorem signed_neg (b : Binary) (s : UnpackedFloat.Sign) : (b.signed s).neg = b.signed (-s) := by
  rcases Nat.eq_zero_or_pos b.m with hzero | hpos
  · rw [signed_of_zero hzero, signed_of_zero hzero]
    rfl
  · rw [signed_of_pos hpos, signed_of_pos hpos]
    rfl

theorem isNegative_eq_of_signOf {x y : Float} (h : signOf x = signOf y) : isNegative x = isNegative y := by
  unfold signOf signIf at h
  cases hx : isNegative x <;> cases hy : isNegative y <;> simp [hx, hy] at h ⊢

theorem eq_of_isInf {x : Float} (h : x.isInf = true) : x = ofUnpacked (.infinity (signOf x)) := by
  obtain ⟨hinf, -, hsign⟩ := ofUnpacked_infinity (signOf x)
  exact eq_of_sign_and_rest (isNegative_eq_of_signOf hsign.symm) ((rest_of_isInf h).trans (rest_of_isInf hinf).symm)

/-- Negation changes the sign and nothing else. -/
theorem Rounded.neg {s : UnpackedFloat.Sign} {v : ℚ} {x : Float} (h : Rounded s v x) : Rounded (-s) v (-x) := by
  rcases lt_or_ge v limit with hv | hv
  · have hwithin := h.within hv
    have hregular := magnitudeOf_regular x
    have hneg : -x = ofUnpacked ((magnitudeOf x).signed (-s)) := by
      have hneg : -x = ofUnpacked x.toModel.unpack.neg := rfl
      rw [hneg, unpack_of_isFinite (h.isFinite hv), signed_neg, h.sign]
    obtain ⟨hfinite, hsign, hmagnitude⟩ := ofUnpacked_signed hregular ((hwithin.lt_limit_iff hregular).mp hv) (-s)
    rw [← hneg] at hfinite hsign hmagnitude
    rw [← hmagnitude] at hwithin
    exact rounded_of_finite hfinite hsign hwithin hv
  · have hneg : -ofUnpacked (.infinity s) = ofUnpacked (.infinity (-s)) := by cases s <;> rfl
    rw [eq_of_isInf (h.isInf.mpr hv), h.sign, hneg]
    exact rounded_infinity (-s) hv

end AdhocReport.Decimal
