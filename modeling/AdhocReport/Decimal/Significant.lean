import AdhocReport.Decimal.Fixed
set_option autoImplicit false

/-!
# Decimal: a fixed number of significant digits

A computed number that becomes part of a text is written with at most fifteen significant digits, a
half rounded up and zeros at the end dropped.
-/

namespace AdhocReport.Decimal

/-- The quotient rounded to the nearest integer, a half going up. -/
def roundHalfUp (num den : Nat) : Nat := (2 * num + den) / (2 * den)

/-- Numbers in texts are positional from `0.0001` to below `10 ^ 15`. -/
def Layout.inText : Layout := ⟨-4, 15, 2, true⟩

/-- The value rounded to `count` significant digits. -/
def Binary.significant (x : Binary) (count : Nat) : Digits :=
  let e := x.scale - count
  let (num, den) := x.over e
  Digits.strip count ⟨roundHalfUp num den, e⟩

/-- The text of a double with at most fifteen significant digits. -/
def significantText (x : Float) : String :=
  if x.isNaN then ""
  else if x.isInf then if isNegative x then "-Inf" else "Inf"
  else if x == 0.0 then "0.0"
  else
    let d := (Binary.ofBits x.toBits).significant 15
    let ds := Nat.toDigits 10 d.digits
    (if isNegative x then "-" else "") ++ Layout.inText.render ds (d.exp + ds.length - 1)

/-- The double nearest to the value rounded to `places` decimal places, a half going away from
zero. -/
def roundHalfAway (places : Nat) (x : Float) : Float :=
  if x.isNaN || x.isInf then x
  else
    let (num, den) := (Binary.ofBits x.toBits).over (-(places : Int))
    let m := roundHalfUp num den
    if m == 0 then 0.0 else ofPlaces (isNegative x) m places

end AdhocReport.Decimal
