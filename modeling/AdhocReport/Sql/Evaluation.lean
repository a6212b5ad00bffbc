import AdhocReport.Sql.Scalar
import AdhocReport.Sql.Aggregate
import AdhocReport.Sql.Period
set_option autoImplicit false

/-!
# SQL: evaluation of expressions

SQLite reads a written expression by its own precedences: a concatenation binds most tightly, then
products and quotients, then sums and differences, each from left to right.  Operands that are
written without parentheses therefore join the operators around them, and an expression is first
evaluated to the chain of operators and values that its text shows.
-/

namespace AdhocReport.Sql

open AdhocReport.Query

/-- A row of a table: its values by column name. -/
abbrev Record : Type := String → Value

/-- A row of joined tables: the records by model. -/
abbrev Row : Type := String → Record

/-- The record without values. -/
def Record.missing : Record := fun _ => .null

/-- The row without values. -/
def Row.missing : Row := fun _ => Record.missing

/-- The value of a column in a row. -/
def ColumnUse.value (c : ColumnUse) (r : Row) : Value := r c.model c.column.name

/-- What an expression is evaluated over: the rows that aggregates combine, and the row that shows
the columns outside of aggregates. -/
structure Group where
  rows : List Row
  row : Row

/-- The group of a single row. -/
def Group.single (r : Row) : Group := ⟨[r], r⟩

/-! ## Chains of operators -/

/-- An operator between two values. -/
inductive ValueOp where
  | add
  | sub
  | mul
  | div
  | concat
  deriving DecidableEq, Repr

/-- The operator of a connective. -/
def Connective.valueOp : Connective → ValueOp
  | .add => .add
  | .sub => .sub
  | .mul => .mul
  | .concat => .concat

/-- Apply an operator. -/
def ValueOp.apply : ValueOp → Value → Value → Value
  | .add => Value.add
  | .sub => Value.sub
  | .mul => Value.mul
  | .div => Value.div
  | .concat => Value.concat

/-- How tightly SQLite reads an operator. -/
def ValueOp.tightness : ValueOp → Nat
  | .add => 0
  | .sub => 0
  | .mul => 1
  | .div => 1
  | .concat => 2

/-- A value with the operators and values behind it. -/
structure Chain where
  first : Value
  rest : List (ValueOp × Value)

namespace Chain

/-- A value alone. -/
def atom (v : Value) : Chain := ⟨v, []⟩

/-- Two chains with an operator between them. -/
def join (l : Chain) (op : ValueOp) (r : Chain) : Chain := ⟨l.first, l.rest ++ (op, r.first) :: r.rest⟩

/-- Apply the operators of one tightness from left to right. -/
def applyAt (tightness : Nat) : Value → List (ValueOp × Value) → Chain
  | v, [] => atom v
  | v, (op, w) :: rest =>
    if op.tightness == tightness then applyAt tightness (op.apply v w) rest
    else
      let c := applyAt tightness w rest
      ⟨v, (op, c.first) :: c.rest⟩

/-- The value of a chain, the tightest operators applied first. -/
def value (c : Chain) : Value :=
  let c := applyAt 2 c.first c.rest
  let c := applyAt 1 c.first c.rest
  (applyAt 0 c.first c.rest).first

/-- The chain in parentheses when asked for. -/
def parens (wanted : Bool) (c : Chain) : Chain := if wanted then atom c.value else c

end Chain

/-! ## Functions -/

/-- The absolute value; a text counts as a double. -/
def absOf : Value → Value
  | .null => .null
  | .int n => .int n.natAbs
  | v => .real v.toFloat.abs

/-- Round a number to an integer; texts that are no numbers have none. -/
def roundedBy (f : Float → Float) (v : Value) : Value :=
  match v.asNumeric with
  | .int n => .int n
  | .real x => .real (f x)
  | _ => .null

/-- Round to a number of places between none and thirty. -/
def roundedTo (v places : Value) : Value :=
  if v.isNull || places.isNull then .null
  else
    let x := v.toFloat
    if x.abs > 4503599627370496.0 then .ofFloat x
    else .ofFloat (Decimal.roundHalfAway (min places.toInt 30).toNat x)

/-- The greatest or the least of several values, missing if one of them is.  Of equal values the
first is the greatest and the last is the least. -/
def pickOf (greatest : Bool) (vs : List Value) : Value :=
  if vs.any Value.isNull then .null
  else match vs with
  | [] => .null
  | v :: rest => rest.foldl (fun best w =>
      if greatest then (if best.order w == .lt then w else best)
      else if best.order w == .lt then best else w) v

/-- Apply a function. -/
def applyFunction (f : Function) (vs : List Value) : Value :=
  match f, vs with
  | .abs, v :: _ => absOf v
  | .ceil, v :: _ => roundedBy Float.ceil v
  | .floor, v :: _ => roundedBy Float.floor v
  | .round, [v] => roundedTo v (.int 0)
  | .round, v :: places :: _ => roundedTo v places
  | .coalesce, vs => (vs.find? fun v => !v.isNull).getD .null
  | .greatest, vs => pickOf true vs
  | .least, vs => pickOf false vs
  | _, _ => .null

/-! ## Expressions -/

/-- A literal as a value. -/
def Value.ofLiteral : Literal → Value
  | .int n => .int n
  | .float x => .ofFloat x
  | .text s => .text s
  | .truth b => .ofBool b

/-- The greatest or the least of a single argument is an aggregate. -/
def extreme? (f : Function) (args : List Scalar) : Option (Bool × Scalar) :=
  match f, args with
  | .greatest, [e] => some (true, e)
  | .least, [e] => some (false, e)
  | _, _ => none

namespace Scalar

mutual

/-- The chain that the text of an expression shows. -/
def chain (g : Group) : Scalar → Chain
  | .column c => .atom (c.value g.row)
  | .literal v => .atom (.ofLiteral v)
  | .negated e => .atom ((chain g e).value).neg
  | .binary op l r =>
    ((chain g l).parens (l.needsParens op.precedence (some op))).join op.valueOp
      ((chain g r).parens (r.needsParens op.precedence (some op)))
  | .quotient l r =>
    let divisor := (chain g r).value
    let nonzero := if divisor.same (.int 0) then .null else divisor
    ((chain g l).parens (l.needsParens 8 none)).join .div (.atom (nonzero.add (.real 0.0)))
  | .call f args =>
    match f, args with
    | .greatest, [e] => .atom (extremeOf true (g.rows.map fun r => (chain (.single r) e).value))
    | .least, [e] => .atom (extremeOf false (g.rows.map fun r => (chain (.single r) e).value))
    | f, args => .atom (applyFunction f (values g args))
  | .aggregate a e => .atom (aggregateOf a (g.rows.map fun r => (chain (.single r) e).value))
  | .period b c => .atom (periodOf b (c.value g.row))
termination_by structural e => e

/-- The values of arguments. -/
def values (g : Group) : List Scalar → List Value
  | [] => []
  | e :: rest => (chain g e).value :: values g rest
termination_by structural args => args

end

/-- The value of an expression. -/
def value (g : Group) (e : Scalar) : Value := (e.chain g).value

mutual

/-- The extremes among the aggregates of an expression, from left to right. -/
def extremes : Scalar → List (Bool × Scalar)
  | .column _ => []
  | .literal _ => []
  | .negated e => extremes e
  | .binary _ l r => extremes l ++ extremes r
  | .quotient l r => extremes l ++ extremes r
  | .call f args =>
    match extreme? f args with
    | some x => [x]
    | none => extremesAll args
  | .aggregate .max e => [(true, e)]
  | .aggregate .min e => [(false, e)]
  | .aggregate _ _ => []
  | .period _ _ => []
termination_by structural e => e

/-- The extremes among the aggregates of arguments. -/
def extremesAll : List Scalar → List (Bool × Scalar)
  | [] => []
  | e :: rest => extremes e ++ extremesAll rest
termination_by structural args => args

end

mutual

/-- How deeply aggregates are nested in an expression. -/
def aggregateDepth : Scalar → Nat
  | .column _ => 0
  | .literal _ => 0
  | .negated e => aggregateDepth e
  | .binary _ l r => max (aggregateDepth l) (aggregateDepth r)
  | .quotient l r => max (aggregateDepth l) (aggregateDepth r)
  | .call f args => (if (extreme? f args).isSome then 1 else 0) + aggregateDepthAll args
  | .aggregate _ e => 1 + aggregateDepth e
  | .period _ _ => 0
termination_by structural e => e

/-- How deeply aggregates are nested in arguments. -/
def aggregateDepthAll : List Scalar → Nat
  | [] => 0
  | e :: rest => max (aggregateDepth e) (aggregateDepthAll rest)
termination_by structural args => args

end

/-- A function takes a number of arguments. -/
def takes (f : Function) (count : Nat) : Bool :=
  match f with
  | .abs => count == 1
  | .ceil => count == 1
  | .floor => count == 1
  | .round => count == 1 || count == 2
  | .coalesce => 2 ≤ count
  | .greatest => 1 ≤ count
  | .least => 1 ≤ count

mutual

/-- All calls have as many arguments as their functions take. -/
def callsFit : Scalar → Bool
  | .column _ => true
  | .literal _ => true
  | .negated e => callsFit e
  | .binary _ l r => callsFit l && callsFit r
  | .quotient l r => callsFit l && callsFit r
  | .call f args => takes f args.length && callsFitAll args
  | .aggregate _ e => callsFit e
  | .period _ _ => true
termination_by structural e => e

/-- All calls in arguments have as many arguments as their functions take. -/
def callsFitAll : List Scalar → Bool
  | [] => true
  | e :: rest => callsFit e && callsFitAll rest
termination_by structural args => args

end

mutual

/-- The literals of an expression. -/
def literals : Scalar → List Literal
  | .column _ => []
  | .literal v => [v]
  | .negated e => literals e
  | .binary _ l r => literals l ++ literals r
  | .quotient l r => literals l ++ literals r
  | .call _ args => literalsAll args
  | .aggregate _ e => literals e
  | .period _ _ => []
termination_by structural e => e

/-- The literals of arguments. -/
def literalsAll : List Scalar → List Literal
  | [] => []
  | e :: rest => literals e ++ literalsAll rest
termination_by structural args => args

end

end Scalar

end AdhocReport.Sql
