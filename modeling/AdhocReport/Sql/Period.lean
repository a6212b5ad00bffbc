import AdhocReport.Sql.Value
import AdhocReport.Calendar.Reading
import AdhocReport.Query.Config
set_option autoImplicit false

/-!
# SQL: periods of dates

Dates are stored as texts: a date, possibly followed by a time of day.  A period is named by the text
of its first instant, which SQLite puts together with its functions: a format for the parts of a
date, steps from one date to another, and a format for values.  The functions over dates are missing
where the date is; a format for values has an empty text or a zero for a missing value.
-/

namespace AdhocReport.Sql

open AdhocReport.Calendar AdhocReport.Query

/-! ## Stored dates -/

/-- The text that a moment is stored as. -/
def storedMoment (m : Moment) : String :=
  m.date.text ++ " " ++ m.clockText ++ "." ++ Decimal.padded 6 m.micro

/-- A time of day may end here: nothing is left, or a fraction of the seconds. -/
def endsClock : List Char → Bool
  | [] => true
  | mark :: ds => mark == '.' && !ds.isEmpty && ds.all Char.isDigit

/-- The hour of a time of day: hours and minutes, possibly seconds, possibly a fraction of them. -/
def clockHour? (cs : List Char) : Option Nat := do
  let (hour, rest) ← fixedDigits? 2 cs
  let (minute, rest) ← (separator? ':' rest).bind (fixedDigits? 2)
  let (second, rest) ← if rest.isEmpty then some (0, []) else (separator? ':' rest).bind (fixedDigits? 2)
  if hour < 24 && minute < 60 && second < 60 && endsClock rest then some hour else none

/-- The date and the hour of a stored text: a date with hyphens, alone or with a time of day behind
blanks or a `T`. -/
def storedHour? (s : String) : Option (Date × Nat) := do
  let (year, rest) ← fixedDigits? 4 s.toList
  let (month, rest) ← (separator? '-' rest).bind (fixedDigits? 2)
  let (day, rest) ← (separator? '-' rest).bind (fixedDigits? 2)
  let date : Date := ⟨year, month, day⟩
  let clock := rest.dropWhile fun c => isNumberBlank c || c == 'T'
  if !decide date.Valid then none
  else if clock.isEmpty then some (date, 0)
  else (clockHour? clock).map fun hour => (date, hour)

/-- The date and the hour of a stored value. -/
def Value.hour? : Value → Option (Date × Nat)
  | .text s => storedHour? s
  | _ => none

/-! ## Formats -/

/-- The part of a date that a letter of a format stands for. -/
def datePart? (d : Date) (hour : Nat) : Char → Option String
  | 'Y' => some (Decimal.padded 4 d.year.toNat)
  | 'm' => some (Decimal.padded 2 d.month)
  | 'd' => some (Decimal.padded 2 d.day)
  | 'H' => some (Decimal.padded 2 hour)
  | _ => none

/-- Write a date in a format: a percent sign and a letter stand for a part of the date, other
characters for themselves.  There is no text if a letter stands for no part. -/
def formatDate? (d : Date) (hour : Nat) : List Char → Option (List Char)
  | [] => some []
  | '%' :: letter :: rest => do
    let part ← datePart? d hour letter
    some (part.toList ++ (← formatDate? d hour rest))
  | c :: rest => do some (c :: (← formatDate? d hour rest))

/-- An integer with two characters or more. -/
def twoDigits (n : Int) : String :=
  if n < 0 then "-" ++ Decimal.natText n.natAbs else Decimal.padded 2 n.natAbs

/-- Write values in a format: `%s` stands for the text of the next value and `%02d` for its integer,
other characters for themselves. -/
def formatValues : List Char → List Value → List Char
  | [], _ => []
  | '%' :: 's' :: rest, vs => (vs.headD .null).written.toList ++ formatValues rest vs.tail
  | '%' :: '0' :: '2' :: 'd' :: rest, vs =>
    (twoDigits (vs.headD .null).toInt).toList ++ formatValues rest vs.tail
  | c :: rest, vs => c :: formatValues rest vs

/-! ## Steps between dates -/

/-- Step a number of days forward. -/
def daysLater : Nat → Date → Date
  | 0, d => d
  | n + 1, d => daysLater n d.next

/-- Step a number of days back. -/
def daysEarlier : Nat → Date → Date
  | 0, d => d
  | n + 1, d => daysEarlier n d.previous

/-- A step from one date to another. -/
inductive DateStep where
  /-- On to a day of the week, counted from Sunday; no step from such a day. -/
  | weekday (n : Nat)
  /-- Back by a number of days. -/
  | daysBack (n : Nat)
  deriving DecidableEq, Repr

/-- A step as a statement writes it. -/
def DateStep.text : DateStep → String
  | .weekday n => "weekday " ++ Decimal.natText n
  | .daysBack n => "-" ++ Decimal.natText n ++ " days"

/-- Take a step. -/
def DateStep.apply (d : Date) : DateStep → Date
  | .weekday n => daysLater ((n + 7 - d.weekday) % 7) d
  | .daysBack n => daysEarlier n d

/-- A date as a value; the years have four digits. -/
def dateValue (d : Date) : Value := if 0 ≤ d.year ∧ d.year ≤ 9999 then .text d.text else .null

/-! ## Numbers -/

/-- The integer that a text starts with, within the range. -/
def leadingInteger (cs : List Char) : Int :=
  let n : Int := match cs.dropWhile isNumberBlank with
    | '-' :: r => -(digitsNat (r.takeWhile Char.isDigit) : Int)
    | '+' :: r => digitsNat (r.takeWhile Char.isDigit)
    | r => digitsNat (r.takeWhile Char.isDigit)
  max (-0x8000000000000000) (min n 0x7FFFFFFFFFFFFFFF)

/-- A value cast to an integer; missing values stay missing. -/
def Value.asInteger : Value → Value
  | .null => .null
  | .text s => .int (leadingInteger s.toList)
  | v => .int v.toInt

/-- The quotient, toward zero for two integers; missing when the divisor is zero. -/
def Value.quotient (a b : Value) : Value :=
  match a.number, b.number with
  | .int m, .int n => if n == 0 then .null else .ofInt (m.tdiv n)
  | x, y => x.div y

/-- Apply an operator to two numbers. -/
def numberOperation : Operator → Value → Value → Value
  | .add => Value.add
  | .sub => Value.sub
  | .mul => Value.mul
  | .div => Value.quotient

/-! ## Periods -/

/-- An expression over one stored date. -/
inductive DateTerm where
  /-- The date in a format. -/
  | formatted (format : String)
  /-- The date that steps lead to. -/
  | stepped (steps : List DateStep)
  /-- The integer that a text starts with. -/
  | integer (operand : DateTerm)
  /-- An operation with an integer. -/
  | operation (op : Operator) (left : DateTerm) (right : Int)
  /-- Two values in a format. -/
  | printed (format : String) (first second : DateTerm)
  deriving Repr

/-- The value of an expression over a date. -/
def DateTerm.value (v : Value) : DateTerm → Value
  | .formatted format => match v.hour? with
    | some (d, hour) => match formatDate? d hour format.toList with
      | some cs => .text (String.ofList cs)
      | none => .null
    | none => .null
  | .stepped steps => match v.hour? with
    | some (d, _) => dateValue (steps.foldl DateStep.apply d)
    | none => .null
  | .integer e => (e.value v).asInteger
  | .operation op l n => numberOperation op (l.value v) (.int n)
  | .printed format a b => .text (String.ofList (formatValues format.toList [a.value v, b.value v]))

/-- The first month of the quarter that holds a date. -/
def quarterMonth : DateTerm :=
  .operation .add (.operation .mul (.operation .div (.operation .sub (.integer (.formatted "%m")) 1) 3) 3) 1

/-- The first instant of the period that holds a date.  The week starts on the Monday before the next
Sunday, a Sunday being its own. -/
def periodTerm : TimeBucket → DateTerm
  | .hour => .formatted "%Y-%m-%d %H:00:00"
  | .day => .formatted "%Y-%m-%d"
  | .week => .stepped [.weekday 0, .daysBack 6]
  | .month => .formatted "%Y-%m-01"
  | .quarter => .printed "%s-%02d-01" (.formatted "%Y") quarterMonth
  | .year => .formatted "%Y-01-01"

/-- The period of a stored value. -/
def periodOf (bucket : TimeBucket) (v : Value) : Value := (periodTerm bucket).value v

end AdhocReport.Sql
