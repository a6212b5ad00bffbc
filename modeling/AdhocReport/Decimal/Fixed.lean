import AdhocReport.Decimal.Notation
set_option autoImplicit false

/-!
# Decimal: a fixed number of places

A value of a decimal column with `s` places is rounded to those places, a half going to the even
neighbour, and read back as a double.
-/

namespace AdhocReport.Decimal

/-- The quotient rounded to the nearest integer, a half going to the even neighbour. -/
def roundDiv (num den : Nat) : Nat :=
  let q := num / den
  match compare (2 * (num % den)) den with
  | .lt => q
  | .gt => q + 1
  | .eq => if q % 2 == 0 then q else q + 1

/-- The double nearest to `m * 10 ^ -places`, negated on request. -/
def ofPlaces (negative : Bool) (m places : Nat) : Float :=
  let x := Float.ofScientific m true places
  if negative then -x else x

/-- The double nearest to the value rounded to `places` decimal places. -/
def roundTo (places : Nat) (x : Float) : Float :=
  if x.isNaN || x.isInf then x
  else
    let (num, den) := (Binary.ofBits x.toBits).over (-(places : Int))
    ofPlaces (isNegative x) (roundDiv num den) places

/-- The double nearest to an integer. -/
def ofInt (n : Int) : Float :=
  let x := Float.ofScientific n.natAbs false 0
  if n < 0 then -x else x

/-- The integer that a double without fraction denotes. -/
def toInt? (x : Float) : Option Int :=
  if x.isNaN || x.isInf then none
  else
    let (num, den) := (Binary.ofBits x.toBits).over 0
    if num % den == 0 then
      some (if isNegative x then -((num / den : Nat) : Int) else ((num / den : Nat) : Int))
    else none

/-- The integer part of a finite double, toward zero. -/
def truncate (x : Float) : Int :=
  let (num, den) := (Binary.ofBits x.toBits).over 0
  if isNegative x then -((num / den : Nat) : Int) else ((num / den : Nat) : Int)

end AdhocReport.Decimal
