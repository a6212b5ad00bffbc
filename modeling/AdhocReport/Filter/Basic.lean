import AdhocReport.Filter.Operator
import AdhocReport.Check.Scalar
import AdhocReport.Decimal.Notation
set_option autoImplicit false

/-!
# Filters: descriptors

A filter as it is submitted: a field, an operator, and a value or a second field.  Whether operator
and value fit the field is decided later, so that every problem can be reported at once.  When the
type of the field changes, the descriptor is adapted to it.
-/

namespace AdhocReport

/-- The dotted path of a field. -/
def FieldRef.path (r : FieldRef) : String := r.model ++ "." ++ r.field

/-- A field reference as JSON. -/
def FieldRef.toJson (r : FieldRef) : Json := .obj [("model_id", .str r.model), ("field_id", .str r.field)]

/-- Read a field reference. -/
def FieldRef.reader : Check.Reader FieldRef :=
  Check.record "FieldRef" ["model_id", "field_id"] fun ms =>
    FieldRef.mk <$> Check.required ms "model_id" Check.text <*> Check.required ms "field_id" Check.text

namespace Filter

/-- A filter descriptor. -/
structure Spec where
  id : Option String
  left : FieldRef
  operator : Operator
  rightKind : OperandKind
  value : Option String
  right : Option FieldRef
  valueKind : ValueKind
  deriving DecidableEq, Repr

namespace Spec

/-- The members of a descriptor. -/
def known : List String := ["id", "left", "operator", "right_type", "value", "right", "value_kind"]

/-- A value is kept as a text: truth values and numbers by their written form. -/
def valueReader : Check.Reader (Option String)
  | .null => .valid none
  | .str s => .valid (some s)
  | .bool b => .valid (some (if b then "true" else "false"))
  | .int n => .valid (some (Decimal.intText n))
  | .float x => .valid (some (Decimal.floatText x))
  | _ => .fail (.rejected "Filter value must be a string, number or boolean")

/-- Read a descriptor. -/
def reader : Check.Reader Spec :=
  Check.record "ReportFilter" known fun ms =>
    Spec.mk <$> Check.defaulted ms "id" none (Check.nullable Check.text)
      <*> Check.required ms "left" FieldRef.reader
      <*> Check.required ms "operator" (Check.choice Operator.codes)
      <*> Check.defaulted ms "right_type" .value (Check.choice OperandKind.codes)
      <*> Check.defaulted ms "value" none valueReader
      <*> Check.defaulted ms "right" none (Check.nullable FieldRef.reader)
      <*> Check.defaulted ms "value_kind" .string (Check.choice ValueKind.codes)

/-- A descriptor as JSON. -/
def toJson (f : Spec) : Json :=
  .obj [("id", Json.ofText? f.id), ("left", f.left.toJson), ("operator", .str f.operator.code),
    ("right_type", .str f.rightKind.code), ("value", Json.ofText? f.value),
    ("right", (f.right.map FieldRef.toJson).getD .null), ("value_kind", .str f.valueKind.code)]

/-- Adapt a descriptor to the type of its field: select a valid operator and the fitting kind of
value, and drop a right operand that the operator does not take. -/
def adaptTo (f : Spec) (type : FieldType) : Spec :=
  let operator := selectOperator (some f.operator) type
  let adapted : Spec := { f with operator, valueKind := valueKindFor type }
  if !operator.requiresValue then { adapted with value := none, right := none, rightKind := .value }
  else if f.rightKind == .field && !operator.allowsFieldComparison then
    { adapted with right := none, rightKind := .value }
  else adapted

/-- The position and the content of a filter, as messages name it. -/
def label (f : Spec) (position : Nat) : String :=
  "Filter " ++ Decimal.natText position ++ " (" ++ f.left.path ++ " " ++ f.operator.code ++ ")"

end Spec

end Filter

end AdhocReport
