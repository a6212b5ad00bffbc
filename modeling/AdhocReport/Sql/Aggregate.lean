import AdhocReport.Sql.Value
import AdhocReport.Query.Config
set_option autoImplicit false

/-!
# SQL: aggregates

An aggregate passes over missing values.  A sum stays an integer as long as only integers are added;
sums of doubles carry the rounding errors along and add them at the end.
-/

namespace AdhocReport.Sql

open AdhocReport.Query

/-- A sum in progress. -/
structure Total where
  count : Nat
  /-- The sum as long as only integers are added. -/
  whole : Int
  /-- A number that is no integer was added, or the integers left their range. -/
  inexact : Bool
  sum : Float
  /-- The rounding errors made so far. -/
  error : Float

namespace Total

/-- The empty sum. -/
def zero : Total := ⟨0, 0, false, 0.0, 0.0⟩

/-- Add a double, keeping the rounding error. -/
def addFloat (t : Total) (x : Float) : Total :=
  let sum := t.sum + x
  let lost := if t.sum.abs > x.abs then (t.sum - sum) + x else (x - sum) + t.sum
  { t with sum := sum, error := t.error + lost }

/-- Add an integer as a double; one that a double does not hold is added in two parts. -/
def addInt (t : Total) (n : Int) : Total :=
  if n.natAbs ≤ 4503599627370496 then t.addFloat (Decimal.ofInt n)
  else
    let small := n.tmod 16384
    (t.addFloat (Decimal.ofInt (n - small))).addFloat (Decimal.ofInt small)

/-- Go on in doubles from the integers added so far. -/
def start (t : Total) : Total := if t.inexact then t else { t with inexact := true }.addInt t.whole

/-- Add a value; a text counts as an integer only if it is one as a whole. -/
def add (t : Total) (v : Value) : Total :=
  match v.asNumeric with
  | .null => t
  | .int n =>
    let t := { t with count := t.count + 1 }
    if !t.inexact && fitsInt64 (t.whole + n) then { t with whole := t.whole + n } else t.start.addInt n
  | w => { t with count := t.count + 1 }.start.addFloat w.toFloat

/-- The sum as a double. -/
def toFloat (t : Total) : Float :=
  if t.inexact then
    if t.error.isNaN || t.error.isInf then t.sum else t.sum + t.error
  else Decimal.ofInt t.whole

end Total

/-- The sum of values in progress. -/
def total (vs : List Value) : Total := vs.foldl Total.add .zero

/-- The sum; missing when there is nothing to add. -/
def sumOf (vs : List Value) : Value :=
  let t := total vs
  if t.count == 0 then .null else if t.inexact then .ofFloat t.toFloat else .int t.whole

/-- The mean; missing when there is nothing to add. -/
def meanOf (vs : List Value) : Value :=
  let t := total vs
  if t.count == 0 then .null else .ofFloat (t.toFloat / t.count.toFloat)

/-- The second value takes the place of the first as the greatest or the least so far. -/
def replaces (greatest : Bool) (best v : Value) : Bool :=
  v.order best == (if greatest then .gt else .lt)

/-- The first of the greatest, or of the least, values that are there. -/
def extremeOf (greatest : Bool) : List Value → Value
  | [] => .null
  | v :: rest => rest.foldl (fun best w =>
      if w.isNull then best else if best.isNull || replaces greatest best w then w else best) v

/-- The values without repeats. -/
def differentValues : List Value → List Value
  | [] => []
  | v :: rest => v :: (differentValues rest).filter fun w => !v.same w

/-- The number of values that are there. -/
def countOf (vs : List Value) : Value := .int ((vs.filter fun v => !v.isNull).length : Nat)

/-- The aggregate of values. -/
def aggregateOf (a : Aggregation) (vs : List Value) : Value :=
  match a with
  | .sum => sumOf vs
  | .avg => meanOf vs
  | .min => extremeOf false vs
  | .max => extremeOf true vs
  | .count => countOf vs
  | .countDistinct => countOf (differentValues vs)

end AdhocReport.Sql
