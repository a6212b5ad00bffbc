import AdhocReport.Schema.FieldType
set_option autoImplicit false

/-!
# Filters: operators

A filter compares a field, searches its text, or tests it without a value.  Which operators apply
depends on the field's semantic type, and so does the kind of value they take.
-/

namespace AdhocReport.Filter

/-- The six comparisons; the only operators that may compare two fields. -/
inductive Comparator where
  | eq
  | neq
  | gt
  | gte
  | lt
  | lte
  deriving DecidableEq, Repr

/-- A search of a field's text, in which letter case does not count. -/
inductive Search where
  | contains
  | startsWith
  | endsWith
  deriving DecidableEq, Repr

/-- A test that takes no value. -/
inductive Test where
  | isNull
  | isNotNull
  | isTrue
  | isFalse
  deriving DecidableEq, Repr

/-- What a filter does with its field. -/
inductive Operator where
  | compare (c : Comparator)
  | search (s : Search)
  | test (t : Test)
  deriving DecidableEq, Repr

/-- The right operand of a filter is a value or a second field. -/
inductive OperandKind where
  | value
  | field
  deriving DecidableEq, Repr

/-- How the text of a value is to be read. -/
inductive ValueKind where
  | string
  | number
  | date
  | boolean
  deriving DecidableEq, Repr

/-- The symbol of a comparison. -/
def Comparator.symbol : Comparator → String
  | .eq => "="
  | .neq => "<>"
  | .gt => ">"
  | .gte => ">="
  | .lt => "<"
  | .lte => "<="

/-- The wording of a test. -/
def Test.phrase : Test → String
  | .isNull => "IS NULL"
  | .isNotNull => "IS NOT NULL"
  | .isTrue => "IS TRUE"
  | .isFalse => "IS FALSE"

namespace Comparator

/-- The code of a comparison. -/
def code : Comparator → String
  | .eq => "eq"
  | .neq => "neq"
  | .gt => "gt"
  | .gte => "gte"
  | .lt => "lt"
  | .lte => "lte"

end Comparator

namespace Operator

/-- The code of an operator. -/
def code : Operator → String
  | .compare c => c.code
  | .search .contains => "contains"
  | .search .startsWith => "starts_with"
  | .search .endsWith => "ends_with"
  | .test .isNull => "is_null"
  | .test .isNotNull => "is_not_null"
  | .test .isTrue => "is_true"
  | .test .isFalse => "is_false"

/-- All operators. -/
def all : List Operator :=
  [.compare .eq, .compare .neq, .compare .gt, .compare .gte, .compare .lt, .compare .lte,
   .search .contains, .search .startsWith, .search .endsWith,
   .test .isNull, .test .isNotNull, .test .isTrue, .test .isFalse]

/-- All operators with their codes. -/
def codes : List (String × Operator) := all.map fun o => (o.code, o)

/-- The comparison this operator makes. -/
def comparator? : Operator → Option Comparator
  | .compare c => some c
  | _ => none

/-- The operator needs a right operand. -/
def requiresValue : Operator → Bool
  | .test _ => false
  | _ => true

/-- The operator may compare with a second field. -/
def allowsFieldComparison (o : Operator) : Bool := o.comparator?.isSome

end Operator

/-- The codes of the operand kinds. -/
def OperandKind.codes : List (String × OperandKind) := [("value", .value), ("field", .field)]

/-- The code of an operand kind. -/
def OperandKind.code : OperandKind → String
  | .value => "value"
  | .field => "field"

/-- The codes of the value kinds. -/
def ValueKind.codes : List (String × ValueKind) :=
  [("string", .string), ("number", .number), ("date", .date), ("boolean", .boolean)]

/-- The code of a value kind. -/
def ValueKind.code : ValueKind → String
  | .string => "string"
  | .number => "number"
  | .date => "date"
  | .boolean => "boolean"

/-- The operators of texts and identifiers. -/
def textOperators : List Operator :=
  [.compare .eq, .compare .neq, .search .contains, .search .startsWith, .search .endsWith,
   .test .isNull, .test .isNotNull]

/-- The operators of numbers and dates. -/
def orderedOperators : List Operator :=
  [.compare .eq, .compare .neq, .compare .gt, .compare .gte, .compare .lt, .compare .lte,
   .test .isNull, .test .isNotNull]

/-- The operators of truth values. -/
def truthOperators : List Operator :=
  [.test .isTrue, .test .isFalse, .compare .eq, .compare .neq, .test .isNull, .test .isNotNull]

/-- The operators that apply to a type. -/
def operatorsFor : FieldType → List Operator
  | .string => textOperators
  | .identifier => textOperators
  | .number => orderedOperators
  | .currency => orderedOperators
  | .percentage => orderedOperators
  | .date => orderedOperators
  | .boolean => truthOperators

/-- The kind of value that fits a type. -/
def valueKindFor : FieldType → ValueKind
  | .string => .string
  | .identifier => .string
  | .number => .number
  | .currency => .number
  | .percentage => .number
  | .date => .date
  | .boolean => .boolean

/-- The current operator if it applies to the type, else equality. -/
def selectOperator (current : Option Operator) (type : FieldType) : Operator :=
  match current with
  | some o => if (operatorsFor type).contains o then o else .compare .eq
  | none => .compare .eq

end AdhocReport.Filter
