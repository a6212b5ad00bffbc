import AdhocReport.Decimal.Shortest
set_option autoImplicit false

/-!
# Decimal: how numbers are written

Integers are written in decimal digits.  Floats are written with the fewest digits that read back,
positionally from `0.0001` up to below `10 ^ 16` and with a signed exponent of at least two digits
outside that range; a positional text always has a point.
-/

namespace AdhocReport.Decimal

/-- The decimal digits of a natural number. -/
def natText (n : Nat) : String := String.ofList (Nat.toDigits 10 n)

/-- The decimal text of an integer, with a minus sign for the negative ones. -/
def intText (n : Int) : String :=
  if n < 0 then "-" ++ natText n.natAbs else natText n.natAbs

/-- A natural number written with at least `width` digits. -/
def padded (width n : Nat) : String :=
  let digits := Nat.toDigits 10 n
  String.ofList (List.replicate (width - digits.length) '0' ++ digits)

/-- The layout decisions for floats. -/
structure Layout where
  /-- Least exponent of the leading digit that is written positionally. -/
  plainFrom : Int
  /-- Exponents of the leading digit from here on are written with an exponent. -/
  plainBelow : Int
  /-- Least number of digits of the exponent. -/
  exponentWidth : Nat
  /-- A single digit before an exponent has a point and a zero after it. -/
  pointed : Bool

/-- Floats are positional from `0.0001` to below `10 ^ 16`; exponents have two digits or more. -/
def Layout.standard : Layout := ⟨-4, 16, 2, false⟩

/-- Lay out digits `ds` whose first one has the exponent `e`. -/
def Layout.render (l : Layout) (ds : List Char) (e : Int) : String :=
  if l.plainFrom ≤ e ∧ e < l.plainBelow then
    if e < 0 then
      String.ofList ("0.".toList ++ List.replicate ((-e).toNat - 1) '0' ++ ds)
    else
      let whole := e.toNat + 1
      if ds.length ≤ whole then
        String.ofList (ds ++ List.replicate (whole - ds.length) '0' ++ ".0".toList)
      else
        String.ofList (ds.take whole ++ '.' :: ds.drop whole)
  else
    let mantissa := match ds with
      | d :: [] => if l.pointed then [d, '.', '0'] else [d]
      | d :: rest => d :: '.' :: rest
      | [] => []
    String.ofList mantissa ++ (if e < 0 then "e-" else "e+") ++ padded l.exponentWidth e.natAbs

/-- The sign bit of a double. -/
def isNegative (x : Float) : Bool := x.toBits >>> 63 == 1

/-- The text of a float: the fewest digits that read back, or `nan`, `inf`, `-inf`. -/
def floatText (x : Float) : String :=
  if x.isNaN then "nan"
  else if x.isInf then if isNegative x then "-inf" else "inf"
  else
    let d := (Binary.ofBits x.toBits).shortest
    let ds := Nat.toDigits 10 d.digits
    let e : Int := if d.digits == 0 then 0 else d.exp + ds.length - 1
    (if isNegative x then "-" else "") ++ Layout.standard.render ds e

end AdhocReport.Decimal
