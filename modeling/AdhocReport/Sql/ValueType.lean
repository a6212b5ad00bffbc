import AdhocReport.Schema.Table
import AdhocReport.Expression.Basic
set_option autoImplicit false

/-!
# SQL: types of expressions

The type of an expression decides how a sum of it is written and how its values are read.  A type
may be unknown in two ways: a column whose stored type is not understood has the type `other`, and a
call whose result type is not declared has the type `null`.
-/

namespace AdhocReport.Sql

/-- The type of an expression. -/
inductive ValueType where
  | integer
  | float
  | text
  | boolean
  /-- A decimal with a number of places, when one is declared. -/
  | numeric (scale : Option Nat)
  | datetime
  | date
  | interval
  | other
  | null
  deriving DecidableEq, Repr

namespace ValueType

/-- The type of a stored column. -/
def ofColumn : Schema.ColumnType → ValueType
  | .integer => .integer
  | .text => .text
  | .numeric scale => .numeric (some scale)
  | .boolean => .boolean
  | .datetime => .datetime
  | .date => .date
  | .other => .other

/-- The type of a literal. -/
def ofLiteral : Literal → ValueType
  | .int _ => .integer
  | .float _ => .float
  | .text _ => .text
  | .truth _ => .boolean

/-- A sum of these two types is written as a concatenation: both are texts, or one is a text and the
other has no declared type. -/
def concatenates : ValueType → ValueType → Bool
  | .text, .text => true
  | .text, .null => true
  | .null, .text => true
  | _, _ => false

/-- The type of an operation whose left operand is an integer. -/
def integerWith (op : Operator) (right : ValueType) : ValueType :=
  match op, right with
  | .div, .integer => .numeric none
  | _, .numeric scale => .numeric scale
  | _, .float => .float
  | .add, .date => .date
  | .mul, .interval => .interval
  | _, _ => .integer

/-- The type of an operation whose left operand is a date. -/
def dateWith (op : Operator) (right : ValueType) : ValueType :=
  match op, right with
  | .add, .interval => .datetime
  | .sub, .interval => .datetime
  | .sub, .date => .integer
  | .sub, .datetime => .interval
  | _, _ => .date

/-- The type of an operation. -/
def ofOperation (op : Operator) (left right : ValueType) : ValueType :=
  match left with
  | .integer => integerWith op right
  | .date => dateWith op right
  | .numeric scale => match op, right with
    | _, .numeric places => .numeric places
    | .mul, .interval => .interval
    | _, _ => .numeric scale
  | .datetime => match op, right with
    | .sub, .datetime => .interval
    | _, _ => .datetime
  | .interval => match op, right with
    | .add, .date => .datetime
    | .add, .datetime => .datetime
    | _, _ => .interval
  | .null => match op with
    | .add => right
    | .mul => right
    | _ => .null
  | .text => .text
  | .boolean => .boolean
  | .float => .float
  | .other => .other

/-- The first type that is declared. -/
def firstDeclared : List ValueType → ValueType
  | [] => .null
  | .null :: rest => firstDeclared rest
  | t :: _ => t

end ValueType

end AdhocReport.Sql
