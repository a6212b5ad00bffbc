import AdhocReport.Filter.Basic
import AdhocReport.Schema.Registry
import AdhocReport.Sql.Quoting
import AdhocReport.Decimal.Numeral
set_option autoImplicit false

/-!
# Filters: predicate clauses

The row preview takes filters as predicate texts.  Each filter gives a clause or an error, and one
filter's outcome depends on no other.  Names and values are quoted; a number is written as it was
given, once it is known to be a numeral.
-/

namespace AdhocReport.Filter

open AdhocReport.Schema

/-- Why a filter gives no clause. -/
inductive ClauseFault where
  | modelNotInQuery (model : String)
  | unknownField (path : String)
  | operatorNotValid (type : FieldType)
  | literalRequired
  | fieldRequired
  | emptyValue
  | valueRequired (operator : Operator)
  | notNumber (value : String)
  | notTruth (value : String)
  deriving DecidableEq, Repr

/-- The wording of a fault. -/
def ClauseFault.message : ClauseFault → String
  | .modelNotInQuery m => "model '" ++ m ++ "' is not part of the query"
  | .unknownField p => "unknown field '" ++ p ++ "'"
  | .operatorNotValid t => "operator is not valid for " ++ t.code ++ " fields"
  | .literalRequired => "operator requires a literal value"
  | .fieldRequired => "select a field to compare against"
  | .emptyValue => "value cannot be empty"
  | .valueRequired o => "operator '" ++ o.code ++ "' requires a value"
  | .notNumber v => "'" ++ v ++ "' is not a valid number"
  | .notTruth v => "'" ++ v ++ "' is not a valid boolean (expected 'true' or 'false')"

/-- The numeral that a whole text writes, with its sign; one line feed may follow. -/
def numeral? (text : String) : Option (Bool × Decimal.Numeral) :=
  let (negative, body) := Decimal.sign? text.toList
  match Decimal.Numeral.scan? body with
  | some (n, []) => some (negative, n)
  | some (n, ['\n']) => some (negative, n)
  | _ => none

/-- The double that a signed numeral denotes. -/
def numeralFloat (n : Bool × Decimal.Numeral) : Float := if n.1 then -n.2.toFloat else n.2.toFloat

/-- The text is a numeral of a finite value. -/
def isNumber (text : String) : Bool :=
  match numeral? text with
  | some n => let x := numeralFloat n; !(x.isNaN || x.isInf)
  | none => false

/-- A column of a clause. -/
structure ClauseColumn where
  tableAlias : String
  name : String
  type : FieldType
  deriving DecidableEq, Repr

/-- The value of a comparison. -/
inductive ClauseValue where
  /-- A numeral, written as it was given. -/
  | number (numeral : String)
  | truth (b : Bool)
  | text (s : String)
  deriving DecidableEq, Repr

/-- What a filter demands of a row. -/
inductive Predicate where
  | test (column : ClauseColumn) (t : Test)
  | search (column : ClauseColumn) (s : Search) (value : String)
  | compareFields (left : ClauseColumn) (c : Comparator) (right : ClauseColumn)
  | compareValue (left : ClauseColumn) (c : Comparator) (value : ClauseValue)
  deriving DecidableEq, Repr

/-- A column as a clause writes it. -/
def ClauseColumn.text (c : ClauseColumn) : String := Sql.quotedName c.tableAlias ++ "." ++ Sql.quotedName c.name

/-- A value as a clause writes it. -/
def ClauseValue.written : ClauseValue → String
  | .number numeral => numeral
  | .truth b => if b then "TRUE" else "FALSE"
  | .text s => Sql.quotedText s

/-- Write a backslash before each backslash, percent sign and underscore. -/
def escapePattern : List Char → List Char
  | [] => []
  | c :: rest =>
    if c = '\\' ∨ c = '%' ∨ c = '_' then '\\' :: c :: escapePattern rest else c :: escapePattern rest

/-- The pattern of a search: the escaped value with wildcards where anything may stand. -/
def patternOf (search : Search) (value : List Char) : List Char :=
  match search with
  | .contains => '%' :: escapePattern value ++ ['%']
  | .startsWith => escapePattern value ++ ['%']
  | .endsWith => '%' :: escapePattern value

/-- The clause of a search. -/
def searchClause (column : ClauseColumn) (search : Search) (value : String) (postgres : Bool) : String :=
  let target := if column.type == .string then column.text else "CAST(" ++ column.text ++ " AS TEXT)"
  let pattern := Sql.quotedText (String.ofList (patternOf search value.toList))
  let escape := Sql.quotedText "\\"
  if postgres then target ++ " ILIKE " ++ pattern ++ " ESCAPE " ++ escape
  else "LOWER(" ++ target ++ ") LIKE LOWER(" ++ pattern ++ ") ESCAPE " ++ escape

/-- The clause of a predicate. -/
def Predicate.clause (postgres : Bool) : Predicate → String
  | .test column t => column.text ++ " " ++ t.phrase
  | .search column s value => searchClause column s value postgres
  | .compareFields left c right => left.text ++ " " ++ c.symbol ++ " " ++ right.text
  | .compareValue left c value => left.text ++ " " ++ c.symbol ++ " " ++ value.written

/-- The column of a field. -/
def columnOf (ref : FieldRef) (aliases : List (String × String)) (registry : Registry) :
    Except ClauseFault ClauseColumn :=
  match aliases.lookup ref.model with
  | none => .error (.modelNotInQuery ref.model)
  | some tableAlias =>
    match registry.field? ref.model ref.field with
    | none => .error (.unknownField ref.path)
    | some f => .ok ⟨tableAlias, f.backingColumn, f.type⟩

/-- The value of a comparison, read as its kind. -/
def valueOf (operator : Operator) (kind : ValueKind) : Option String → Except ClauseFault ClauseValue
  | none => .error (.valueRequired operator)
  | some value =>
    match kind with
    | .number =>
      let text := Text.trim value
      if isNumber text then .ok (.number text) else .error (.notNumber value)
    | .boolean =>
      if value == "true" then .ok (.truth true)
      else if value == "false" then .ok (.truth false)
      else .error (.notTruth value)
    | .date => if Text.isBlankText value then .error .emptyValue else .ok (.text (Text.trim value))
    | .string => if Text.isBlankText value then .error .emptyValue else .ok (.text value)

/-- The predicate of one filter. -/
def predicateOf (f : Spec) (aliases : List (String × String)) (registry : Registry) :
    Except ClauseFault Predicate := do
  let left ← columnOf f.left aliases registry
  if !(operatorsFor left.type).contains f.operator then .error (.operatorNotValid left.type)
  else match f.operator with
  | .test t => .ok (.test left t)
  | .search s =>
    match f.rightKind, f.value with
    | .field, _ => .error .literalRequired
    | .value, none => .error .emptyValue
    | .value, some v => if Text.isBlankText v then .error .emptyValue else .ok (.search left s v)
  | .compare c =>
    match f.rightKind with
    | .field =>
      match f.right with
      | none => .error .fieldRequired
      | some ref => do
        let right ← columnOf ref aliases registry
        .ok (.compareFields left c right)
    | .value => do
      let value ← valueOf f.operator f.valueKind f.value
      .ok (.compareValue left c value)

/-- The predicates of the valid filters and the errors of the others, both in filter order. -/
structure Compilation where
  predicates : List Predicate
  errors : List String
  deriving DecidableEq, Repr

/-- Add the outcome of one filter in front. -/
def Compilation.cons (label : String) (outcome : Except ClauseFault Predicate) (c : Compilation) : Compilation :=
  match outcome with
  | .ok p => { c with predicates := p :: c.predicates }
  | .error fault => { c with errors := (label ++ ": " ++ fault.message) :: c.errors }

/-- Compile filters, numbering them from `position`. -/
def compileFrom (aliases : List (String × String)) (registry : Registry) : Nat → List Spec → Compilation
  | _, [] => ⟨[], []⟩
  | position, f :: rest =>
    (compileFrom aliases registry (position + 1) rest).cons (f.label position) (predicateOf f aliases registry)

/-- Compile filters against the aliases of the models in the query. -/
def compile (filters : List Spec) (aliases : List (String × String)) (registry : Registry) : Compilation :=
  compileFrom aliases registry 1 filters

/-- The clauses of the predicates. -/
def Compilation.clauses (c : Compilation) (postgres : Bool) : List String := c.predicates.map (·.clause postgres)

/-- The compilation as it is served. -/
def Compilation.toJson (c : Compilation) (postgres : Bool) : Json :=
  .obj [("clauses", Json.ofTexts (c.clauses postgres)), ("errors", Json.ofTexts c.errors)]

end AdhocReport.Filter
