import AdhocReport.Decimal.Significant
import AdhocReport.Collection.Sorting
set_option autoImplicit false

/-!
# SQL: values

A stored or computed value is missing, a 64-bit integer, a double or a text.  Arithmetic with a
missing value is missing; integer arithmetic that leaves the range goes on in doubles; and a text
counts as the number that it starts with.
-/

namespace AdhocReport.Sql

/-- A stored or computed value. -/
inductive Value where
  | null
  | int (n : Int)
  | real (x : Float)
  | text (s : String)
  deriving Inhabited

/-- The integer fits in 64 bits. -/
def fitsInt64 (n : Int) : Bool := -0x8000000000000000 ≤ n && n < 0x8000000000000000

namespace Value

/-- The value is missing. -/
def isNull : Value → Bool
  | .null => true
  | _ => false

/-- A double as a value; a result that is no number is missing. -/
def ofFloat (x : Float) : Value := if x.isNaN then .null else .real x

/-- An integer as a value, a double when it does not fit. -/
def ofInt (n : Int) : Value := if fitsInt64 n then .int n else .real (Decimal.ofInt n)

/-- A truth value as a value. -/
def ofBool (b : Bool) : Value := .int (if b then 1 else 0)

end Value

/-! ## Numbers in texts -/

/-- The blanks that may stand around a number. -/
def isNumberBlank (c : Char) : Bool := c == ' ' || (0x09 ≤ c.toNat && c.toNat ≤ 0x0D)

/-- The number that decimal digits denote. -/
def digitsNat (cs : List Char) : Nat := cs.foldl (fun n c => 10 * n + (c.toNat - 48)) 0

/-- What a text says about a number. -/
structure NumberText where
  /-- The number that the text starts with, zero if it starts with none. -/
  value : Value
  /-- Blanks apart, the text is nothing but the number. -/
  whole : Bool

/-- The sign and the digits of an exponent; the digits may be missing. -/
def exponentDigits (cs : List Char) : Int × List Char :=
  let (negative, body) := match cs with
    | '+' :: r => (false, r)
    | '-' :: r => (true, r)
    | r => (false, r)
  let n : Int := digitsNat (body.takeWhile Char.isDigit)
  (if negative then -n else n, body.dropWhile Char.isDigit)

/-- The exponent behind a mark, whether it has digits, and what follows. -/
def exponentPart : List Char → Option (Int × Bool × List Char)
  | mark :: rest =>
    if mark == 'e' || mark == 'E' then
      let (e, after) := exponentDigits rest
      let digits := match rest with
        | '+' :: r => r
        | '-' :: r => r
        | r => r
      some (e, (digits.head?.any Char.isDigit), after)
    else none
  | [] => none

/-- The double nearest to `m * 10 ^ e`, an infinity or zero beyond the range. -/
def scaledFloat (m : Nat) (e : Int) : Float :=
  if m == 0 then 0.0
  else if e > 400 then 1.0 / 0.0
  else if e < -(1200 : Int) - Nat.log2 m then 0.0
  else Float.ofScientific m (e < 0) e.natAbs

/-- Read the number that a text starts with.  An integer stays one as long as it fits; a point or an
exponent makes a double, also when what follows is no part of the number. -/
def readNumber (cs : List Char) : NumberText :=
  let cs := cs.dropWhile isNumberBlank
  let (negative, body) := match cs with
    | '+' :: r => (false, r)
    | '-' :: r => (true, r)
    | r => (false, r)
  let whole := body.takeWhile Char.isDigit
  let rest := body.dropWhile Char.isDigit
  let (point, fraction, rest) := match rest with
    | '.' :: r => (true, r.takeWhile Char.isDigit, r.dropWhile Char.isDigit)
    | r => (false, [], r)
  if whole.isEmpty && fraction.isEmpty then ⟨.int 0, false⟩
  else
    let (power, marked, valid, rest) := match exponentPart rest with
      | some (e, valid, after) => (e, true, valid, after)
      | none => (0, false, true, rest)
    let ended := (rest.dropWhile isNumberBlank).isEmpty && valid
    let m := digitsNat (whole ++ fraction)
    let x := scaledFloat m (power - fraction.length)
    let real := Value.real (if negative then -x else x)
    let n : Int := if negative then -(digitsNat whole : Int) else digitsNat whole
    let integer := if fitsInt64 n then Value.int n else real
    if point || (marked && valid) then ⟨real, ended⟩ else ⟨integer, ended⟩

namespace Value

/-- The number that a value counts as in arithmetic. -/
def number : Value → Value
  | .text s => (readNumber s.toList).value
  | v => v

/-- The double that a value counts as; missing values count as zero. -/
def toFloat (v : Value) : Float :=
  match v.number with
  | .int n => Decimal.ofInt n
  | .real x => x
  | _ => 0.0

/-- The integer that a value counts as, toward zero and within the range. -/
def toInt (v : Value) : Int :=
  match v.number with
  | .int n => n
  | .real x =>
    if x.isNaN then 0
    else if x ≥ 9.0e18 then 0x7FFFFFFFFFFFFFFF
    else if x ≤ -9.0e18 then -0x8000000000000000
    else Decimal.truncate x
  | _ => 0

/-- A value of a numeric column: a text that is a number becomes that number. -/
def asNumeric : Value → Value
  | .text s =>
    let t := readNumber s.toList
    if t.whole then t.value else .text s
  | v => v

/-- The text of a value inside a longer text. -/
def written : Value → String
  | .null => ""
  | .int n => Decimal.intText n
  | .real x => Decimal.significantText x
  | .text s => s

/-- A value as a text; missing values stay missing. -/
def asText : Value → Value
  | .null => .null
  | v => .text v.written

/-! ## Arithmetic -/

/-- An operation on numbers: on integers while the result fits, else on doubles. -/
def arithmetic (onInts : Int → Int → Int) (onFloats : Float → Float → Float) (a b : Value) : Value :=
  match a.number, b.number with
  | .null, _ => .null
  | _, .null => .null
  | .int m, .int n =>
    if fitsInt64 (onInts m n) then .int (onInts m n)
    else ofFloat (onFloats (Decimal.ofInt m) (Decimal.ofInt n))
  | x, y => ofFloat (onFloats x.toFloat y.toFloat)

/-- The sum. -/
def add (a b : Value) : Value := arithmetic (· + ·) (· + ·) a b

/-- The difference. -/
def sub (a b : Value) : Value := arithmetic (· - ·) (· - ·) a b

/-- The product. -/
def mul (a b : Value) : Value := arithmetic (· * ·) (· * ·) a b

/-- The quotient of doubles, missing when the divisor is zero. -/
def div (a b : Value) : Value :=
  match a.number, b.number with
  | .null, _ => .null
  | _, .null => .null
  | x, y => if y.toFloat == 0.0 then .null else ofFloat (x.toFloat / y.toFloat)

/-- The negative, as a difference from zero. -/
def neg (a : Value) : Value := sub (.int 0) a

/-- The concatenation of two texts. -/
def concat (a b : Value) : Value :=
  match a, b with
  | .null, _ => .null
  | _, .null => .null
  | a, b => .text (a.written ++ b.written)

/-! ## Order -/

/-- Compare an integer with a double exactly. -/
def compareIntFloat (n : Int) (x : Float) : Ordering :=
  if x.isInf then if x > 0.0 then .lt else .gt
  else
    let (num, den) := (Decimal.Binary.ofBits x.toBits).over 0
    compare (n * den) (if Decimal.isNegative x then -(num : Int) else (num : Int))

/-- Compare two doubles. -/
def compareFloats (x y : Float) : Ordering := if x < y then .lt else if y < x then .gt else .eq

/-- Compare two texts by code points. -/
def compareTexts (s t : String) : Ordering := if s < t then .lt else if t < s then .gt else .eq

/-- The order of all values: missing ones first, then numbers, then texts. -/
def order : Value → Value → Ordering
  | .null, .null => .eq
  | .null, _ => .lt
  | _, .null => .gt
  | .int m, .int n => compare m n
  | .int m, .real y => compareIntFloat m y
  | .real x, .int n => (compareIntFloat n x).swap
  | .real x, .real y => compareFloats x y
  | .text s, .text t => compareTexts s t
  | .text _, _ => .gt
  | _, .text _ => .lt

/-- The values are equal, or both missing. -/
def same (a b : Value) : Bool := a.order b == .eq

/-- Compare two values that are both there. -/
def compare? (a b : Value) : Option Ordering := if a.isNull || b.isNull then none else some (a.order b)

/-- The value is true: a number other than zero. -/
def isTrue (v : Value) : Bool :=
  match v.number with
  | .int n => n != 0
  | .real x => x != 0.0
  | _ => false

/-- The value is there and not true. -/
def isFalse (v : Value) : Bool := !v.isNull && !v.isTrue

end Value

end AdhocReport.Sql
