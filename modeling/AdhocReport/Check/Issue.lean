import AdhocReport.Expression.Record
set_option autoImplicit false

/-!
# Checks: issues with a JSON value

A payload is checked against the shape it should have, and every issue is reported with the path to
the offending value.  The kind of an issue fixes its code and its wording.
-/

namespace AdhocReport.Check

/-- One step of a path: a member of an object or an item of a list. -/
inductive Step where
  | key (name : String)
  | index (n : Nat)
  deriving DecidableEq, Repr

/-- What is wrong with a value. -/
inductive IssueKind where
  | missing
  | extraForbidden
  | textType
  | intType
  | intParsing
  | intParsingSize
  | intFromFloat
  | finiteNumber
  | truthType
  | truthParsing
  | numberType
  | choice (allowed : List String)
  | listType
  | objectType
  | recordType (title : String)
  | attributesType
  | pairType
  | tooShort (least actual : Nat)
  | tooLong (most actual : Nat)
  | below (least : Int)
  | momentType
  | momentParsing (text : String)
  | momentRange (text : String)
  | rejected (text : String)
  /-- The text is no JSON. -/
  | notJson
  deriving DecidableEq, Repr

/-- An issue and where it is. -/
structure Issue where
  path : List Step
  kind : IssueKind
  deriving DecidableEq, Repr

/-- Quoted choices, the last one after `or`. -/
def choiceText : List String → String
  | [] => ""
  | a :: [] => "'" ++ a ++ "'"
  | a :: b :: [] => "'" ++ a ++ "' or '" ++ b ++ "'"
  | a :: rest => "'" ++ a ++ "', " ++ choiceText rest

/-- A count of items. -/
def itemCount (n : Nat) : String := Decimal.natText n ++ (if n == 1 then " item" else " items")

namespace IssueKind

/-- The code of an issue. -/
def code : IssueKind → String
  | .missing => "missing"
  | .extraForbidden => "extra_forbidden"
  | .textType => "string_type"
  | .intType => "int_type"
  | .intParsing => "int_parsing"
  | .intParsingSize => "int_parsing_size"
  | .intFromFloat => "int_from_float"
  | .finiteNumber => "finite_number"
  | .truthType => "bool_type"
  | .truthParsing => "bool_parsing"
  | .numberType => "float_type"
  | .choice _ => "enum"
  | .listType => "list_type"
  | .objectType => "dict_type"
  | .recordType _ => "model_type"
  | .attributesType => "model_attributes_type"
  | .pairType => "tuple_type"
  | .tooShort _ _ => "too_short"
  | .tooLong _ _ => "too_long"
  | .below _ => "greater_than_equal"
  | .momentType => "datetime_type"
  | .momentParsing _ => "datetime_from_date_parsing"
  | .momentRange _ => "datetime_parsing"
  | .rejected _ => "value_error"
  | .notJson => "json_invalid"

/-- The wording of an issue. -/
def message : IssueKind → String
  | .missing => "Field required"
  | .extraForbidden => "Extra inputs are not permitted"
  | .textType => "Input should be a valid string"
  | .intType => "Input should be a valid integer"
  | .intParsing => "Input should be a valid integer, unable to parse string as an integer"
  | .intParsingSize => "Unable to parse input string as an integer, exceeded maximum size"
  | .intFromFloat => "Input should be a valid integer, got a number with a fractional part"
  | .finiteNumber => "Input should be a finite number"
  | .truthType => "Input should be a valid boolean"
  | .truthParsing => "Input should be a valid boolean, unable to interpret input"
  | .numberType => "Input should be a valid number"
  | .choice allowed => "Input should be " ++ choiceText allowed
  | .listType => "Input should be a valid list"
  | .objectType => "Input should be a valid dictionary"
  | .recordType title => "Input should be a valid dictionary or instance of " ++ title
  | .attributesType => "Input should be a valid dictionary or object to extract fields from"
  | .pairType => "Input should be a valid tuple"
  | .tooShort least actual =>
    "List should have at least " ++ itemCount least ++ " after validation, not " ++ Decimal.natText actual
  | .tooLong most actual =>
    "Tuple should have at most " ++ itemCount most ++ " after validation, not " ++ Decimal.natText actual
  | .below least => "Input should be greater than or equal to " ++ Decimal.intText least
  | .momentType => "Input should be a valid datetime"
  | .momentParsing text => "Input should be a valid datetime or date, " ++ text
  | .momentRange text => "Input should be a valid datetime, " ++ text
  | .rejected text => "Value error, " ++ text
  | .notJson => "JSON decode error"

end IssueKind

/-- A step as it is reported. -/
def Step.toJson : Step → Json
  | .key name => .str name
  | .index n => .int n

/-- An issue as it is reported. -/
def Issue.toJson (i : Issue) : Json :=
  .obj [("type", .str i.kind.code), ("loc", .arr (i.path.map Step.toJson)), ("msg", .str i.kind.message)]

/-- A payload that does not have the shape `title`. -/
structure Invalid where
  title : String
  issues : List Issue
  deriving DecidableEq, Repr

/-- The first line of the wording: how many issues, and with what. -/
def Invalid.headline (i : Invalid) : String :=
  let n := i.issues.length
  Decimal.natText n ++ (if n == 1 then " validation error for " else " validation errors for ") ++ i.title

end AdhocReport.Check
