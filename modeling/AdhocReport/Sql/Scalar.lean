import AdhocReport.Sql.ValueType
import AdhocReport.Sql.Quoting
import AdhocReport.Query.Config
set_option autoImplicit false

/-!
# SQL: expressions

The expressions of statements: columns of joined tables, literals, arithmetic, calls, aggregates and
the periods of dates.  A quotient divides by the divisor with zero replaced by NULL, so that it is
NULL where the divisor is zero.
-/

namespace AdhocReport.Sql

open AdhocReport.Query

/-- A column of a joined table. -/
structure ColumnUse where
  /-- The model, whose id is the alias of its table. -/
  model : String
  column : Schema.Column
  deriving DecidableEq, Repr

/-- An operator between two operands. -/
inductive Connective where
  | add
  | sub
  | mul
  | concat
  deriving DecidableEq, Repr

/-- An expression. -/
inductive Scalar where
  | column (c : ColumnUse)
  | literal (value : Literal)
  | negated (operand : Scalar)
  | binary (op : Connective) (left right : Scalar)
  /-- The quotient, NULL when the divisor is zero. -/
  | quotient (left right : Scalar)
  | call (function : Function) (args : List Scalar)
  | aggregate (aggregation : Aggregation) (operand : Scalar)
  /-- The first instant of the period that holds a date. -/
  | period (bucket : TimeBucket) (c : ColumnUse)
  deriving Inhabited

namespace Connective

/-- The written operator. -/
def symbol : Connective → String
  | .add => "+"
  | .sub => "-"
  | .mul => "*"
  | .concat => "||"

/-- How tightly an operator binds when statements are written. -/
def precedence : Connective → Nat
  | .add => 7
  | .sub => 7
  | .mul => 8
  | .concat => 5

/-- Repeated use needs no parentheses. -/
def isAssociative : Connective → Bool
  | .sub => false
  | _ => true

/-- The arithmetic operator that gives the type of the result. -/
def operator : Connective → Operator
  | .add => .add
  | .sub => .sub
  | .mul => .mul
  | .concat => .add

end Connective

namespace Scalar

/-- The name a function is written by: SQLite writes the greatest and the least of several values as
`max` and `min`. -/
def functionName (d : Dialect) (f : Function) : String :=
  match d, f with
  | .sqlite, .greatest => "max"
  | .sqlite, .least => "min"
  | _, f => f.name

/-- The result of a function has the type of its arguments. -/
def keepsType (d : Dialect) (f : Function) : Bool :=
  match d, f with
  | _, .coalesce => true
  | .sqlite, .greatest => true
  | .sqlite, .least => true
  | _, _ => false

mutual

/-- The type of an expression. -/
def type (d : Dialect) : Scalar → ValueType
  | .column c => .ofColumn c.column.type
  | .literal v => .ofLiteral v
  | .negated e => type d e
  | .binary .concat _ _ => .text
  | .binary op l r => .ofOperation op.operator (type d l) (type d r)
  | .quotient l _ => .ofOperation .div (type d l) .null
  | .call f args => if keepsType d f then .firstDeclared (types d args) else .null
  | .aggregate .count _ => .integer
  | .aggregate .countDistinct _ => .integer
  | .aggregate .avg _ => .null
  | .aggregate _ e => type d e
  | .period _ _ => .null
termination_by structural e => e

/-- The types of arguments. -/
def types (d : Dialect) : List Scalar → List ValueType
  | [] => []
  | e :: rest => type d e :: types d rest
termination_by structural args => args

end

/-- The sum of two expressions, which is a concatenation when their types say so. -/
def plus (d : Dialect) (l r : Scalar) : Scalar :=
  if ValueType.concatenates (l.type d) (r.type d) then .binary .concat l r else .binary .add l r

/-- An operation of a derived field. -/
def operation (d : Dialect) (op : Operator) (l r : Scalar) : Scalar :=
  match op with
  | .add => plus d l r
  | .sub => .binary .sub l r
  | .mul => .binary .mul l r
  | .div => .quotient l r

/-- How tightly the outermost operator binds; none if there is no operator. -/
def looseness? : Scalar → Option Nat
  | .negated _ => some 8
  | .binary op _ _ => some op.precedence
  | .quotient _ _ => some 8
  | _ => none

/-- An operand has to stand in parentheses below an operator: it binds no tighter, and it is not the
same associative operator. -/
def needsParens (e : Scalar) (precedence : Nat) (op : Option Connective) : Bool :=
  match e.looseness? with
  | none => false
  | some p =>
    p ≤ precedence && !(match e, op with
      | .binary inner _ _, some outer => inner == outer && outer.isAssociative
      | _, _ => false)

end Scalar

end AdhocReport.Sql
