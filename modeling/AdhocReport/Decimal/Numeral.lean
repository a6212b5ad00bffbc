import AdhocReport.Text.Blank
import AdhocReport.Text.DecimalDigit
import AdhocReport.Decimal.Fixed
set_option autoImplicit false

/-!
# Decimal: numbers read from text

A numeral is digits of any script with an optional point and an optional exponent.  Two further
readers take a whole text, padded and with underscores allowed between digits: one for integers
and one for floats, which also knows the names of the infinities and of the missing number.
-/

namespace AdhocReport.Decimal

open AdhocReport.Text

/-- The double `m * 10 ^ e`, for `m` written with `count` digits; beyond the range it is an infinity
or zero. -/
def scaled (m count : Nat) (e : Int) : Float :=
  if m == 0 then 0.0
  else if e > 400 then Float.ofScientific 1 false 400
  else if e < -(1200 : Int) - count then 0.0
  else Float.ofScientific m (e < 0) e.natAbs

/-- The parts of an unsigned numeral. -/
structure Numeral where
  whole : List Char
  /-- A point is written, possibly with no digits after it. -/
  point : Bool
  fraction : List Char
  /-- The sign and the digits of the exponent, when one is written. -/
  exponent : Option (Bool × List Char)

/-- The digits in front, and what follows them. -/
def spanDigits (cs : List Char) : List Char × List Char :=
  (cs.takeWhile isDigit, cs.dropWhile isDigit)

/-- An exponent mark. -/
def isExponentMark (c : Char) : Bool := c == 'e' || c == 'E'

/-- An exponent in front: a mark, an optional sign and at least one digit. -/
def exponent? : List Char → Option ((Bool × List Char) × List Char)
  | mark :: rest =>
    if isExponentMark mark then
      let (negative, body) := match rest with
        | '+' :: r => (false, r)
        | '-' :: r => (true, r)
        | r => (false, r)
      let (ds, after) := spanDigits body
      if ds.isEmpty then none else some ((negative, ds), after)
    else none
  | [] => none

/-- The longest numeral in front, if one starts here. -/
def Numeral.scan? (cs : List Char) : Option (Numeral × List Char) :=
  let (whole, rest) := spanDigits cs
  let (point, fraction, rest) := match rest with
    | '.' :: r =>
      let (ds, after) := spanDigits r
      if whole.isEmpty && ds.isEmpty then (false, [], rest) else (true, ds, after)
    | _ => (false, [], rest)
  if whole.isEmpty && fraction.isEmpty then none
  else match exponent? rest with
    | some (e, after) => some (⟨whole, point, fraction, some e⟩, after)
    | none => some (⟨whole, point, fraction, none⟩, rest)

/-- The numeral has neither point nor exponent. -/
def Numeral.isWhole (n : Numeral) : Bool := !n.point && n.exponent.isNone

/-- The value of the exponent, zero when none is written. -/
def Numeral.power (n : Numeral) : Int :=
  match n.exponent with
  | none => 0
  | some (negative, ds) =>
    let e : Int := digitsValue ds
    if negative then -e else e

/-- The double nearest to the numeral. -/
def Numeral.toFloat (n : Numeral) : Float :=
  let ds := n.whole ++ n.fraction
  scaled (digitsValue ds) ds.length (n.power - n.fraction.length)

/-- An optional sign in front. -/
def sign? : List Char → Bool × List Char
  | '+' :: r => (false, r)
  | '-' :: r => (true, r)
  | r => (false, r)

/-- Underscores stand only between two digits. -/
def dropSeparators : Bool → List Char → Option (List Char)
  | _, [] => some []
  | afterDigit, c :: rest =>
    if c == '_' then
      if afterDigit && (rest.head?.any isDigit) then dropSeparators false rest else none
    else (dropSeparators (isDigit c) rest).map (c :: ·)

/-- A blank that may stand around a numeral: any but the information separators. -/
def isPadding (c : Char) : Bool := isBlank c && !(0x1C <= c.toNat && c.toNat <= 0x1F)

/-- Drop the padding at both ends. -/
def dropPadding (cs : List Char) : List Char :=
  ((cs.dropWhile isPadding).reverse.dropWhile isPadding).reverse

/-- The integer that a whole text denotes: padding around it, a sign, digits. -/
def readInt? (s : String) : Option Int := do
  let (negative, body) := sign? (dropPadding s.toList)
  let ds ← dropSeparators false body
  if ds.isEmpty || !ds.all isDigit then none
  else
    let n : Int := digitsValue ds
    pure (if negative then -n else n)

/-- ASCII letters in lower case; other characters are kept. -/
def lowerAscii (cs : List Char) : List Char := cs.map Char.toLower

/-- The double that a whole text denotes: padding around it, a sign, and a numeral or one of the
names `inf`, `infinity` and `nan` in any case. -/
def readFloat? (s : String) : Option Float := do
  let (negative, body) := sign? (dropPadding s.toList)
  let signed (x : Float) : Float := if negative then -x else x
  let word := String.ofList (lowerAscii body)
  if word == "inf" || word == "infinity" then pure (signed (1.0 / 0.0))
  else if word == "nan" then pure (0.0 / 0.0)
  else
    let cs ← dropSeparators false body
    match Numeral.scan? cs with
    | some (n, []) => pure (signed n.toFloat)
    | _ => none

end AdhocReport.Decimal
