import AdhocReport.Filter.Clause
set_option autoImplicit false

/-!
# Filters: literal comparisons

Aggregated queries take filters only as comparisons of a field with a typed literal.  A filter that
is none, or whose value does not read as its kind, is dropped with a warning.
-/

namespace AdhocReport.Filter

/-- A comparison of a field with a literal. -/
structure Comparison where
  left : FieldRef
  comparator : Comparator
  value : Literal
  deriving DecidableEq

/-- A literal that is one of the four scalar kinds. -/
def literalReader : Check.Reader Literal
  | .bool b => .valid (.truth b)
  | .int n => .valid (.int n)
  | .float x => .valid (.float x)
  | .str s => .valid (.text s)
  | _ => .invalid
      [⟨[.key "bool"], .truthType⟩, ⟨[.key "int"], .intType⟩, ⟨[.key "float"], .numberType⟩,
       ⟨[.key "str"], .textType⟩]

/-- Read an operator that is a comparison. -/
def comparatorReader : Check.Reader Comparator := fun j =>
  (Check.choice Operator.codes j).andThen fun o => match o.comparator? with
    | some c => .valid c
    | none => .fail (.rejected ("Operator '" ++ o.code ++ "' is not supported for analytics queries"))

/-- Read a comparison. -/
def Comparison.reader : Check.Reader Comparison :=
  Check.record "QueryConfigFilter" ["left", "operator", "value"] fun ms =>
    Comparison.mk <$> Check.required ms "left" FieldRef.reader
      <*> Check.required ms "operator" comparatorReader
      <*> Check.required ms "value" literalReader

/-- A comparison as JSON. -/
def Comparison.toJson (c : Comparison) : Json :=
  .obj [("left", c.left.toJson), ("operator", .str c.comparator.code), ("value", c.value.toJson)]

/-- Why a filter is dropped. -/
inductive DropReason where
  | operatorUnsupported
  | fieldComparison
  | badValue
  deriving DecidableEq, Repr

/-- The wording of a reason. -/
def DropReason.message : DropReason → String
  | .operatorUnsupported => "operator is not supported for analytics queries."
  | .fieldComparison => "field-to-field comparisons are not supported for analytics queries."
  | .badValue => "value is missing or invalid."

/-- The number that a text writes: without point and exponent the integer nearest to its double,
else the double. -/
def numberOf? (value : String) : Option Literal :=
  let text := Text.trim value
  match numeral? text with
  | none => none
  | some n =>
    let x := numeralFloat n
    if x.isNaN || x.isInf then none
    else if n.2.isWhole then some (.int (Decimal.truncate x))
    else some (.float x)

/-- The literal that the text of a value denotes under its kind. -/
def literal? (kind : ValueKind) : Option String → Option Literal
  | none => none
  | some value =>
    match kind with
    | .number => numberOf? value
    | .boolean =>
      if value == "true" then some (.truth true) else if value == "false" then some (.truth false) else none
    | .date => if Text.isBlankText value then none else some (.text (Text.trim value))
    | .string => if Text.isBlankText value then none else some (.text value)

/-- The comparison of one filter, or why it is dropped. -/
def comparisonOf (f : Spec) : Except DropReason Comparison :=
  match f.operator.comparator? with
  | none => .error .operatorUnsupported
  | some c =>
    match f.rightKind with
    | .field => .error .fieldComparison
    | .value => match literal? f.valueKind f.value with
      | some value => .ok ⟨f.left, c, value⟩
      | none => .error .badValue

/-- The kept comparisons, and a warning for each dropped filter. -/
structure Reduction where
  filters : List Comparison
  warnings : List String
  deriving DecidableEq

/-- Reduce filters that carry their positions. -/
def reduceNumbered : List (Nat × Spec) → Reduction
  | [] => ⟨[], []⟩
  | (position, f) :: rest =>
    let r := reduceNumbered rest
    match comparisonOf f with
    | .ok c => { r with filters := c :: r.filters }
    | .error reason =>
      { r with warnings := (f.label position ++ " was skipped: " ++ reason.message) :: r.warnings }

/-- Number the entries of a list from `n`. -/
def numberedFrom {α : Type} : Nat → List α → List (Nat × α)
  | _, [] => []
  | n, a :: rest => (n, a) :: numberedFrom (n + 1) rest

/-- Reduce filters to comparisons, numbering them from one. -/
def reduce (filters : List Spec) : Reduction := reduceNumbered (numberedFrom 1 filters)

end AdhocReport.Filter
