import AdhocReport.Query.Compilation
import AdhocReport.Query.SingleSelect
import AdhocReport.Query.Response
import AdhocReport.Sql.Selection
import AdhocReport.Calendar.Reading
import AdhocReport.Calendar.Span
set_option autoImplicit false

/-!
# Queries: execution

A compiled statement is run over the content of the tables, and the values of each result column are
read by the column's type: decimals are rounded to their declared places, dates written in the
international form, and values of undeclared types left as they are.  What is read is JSON, except for the
spans of time: a preview shows them as texts, and no record can keep them.
-/

namespace AdhocReport.Query

open AdhocReport.Sql

/-- A value of a result: one that JSON has, or a span of time, which JSON has not. -/
inductive Cell where
  | json (j : Json)
  | span (d : Calendar.Span)

/-- The value as it is shown, a span by its text. -/
def Cell.shown : Cell → Json
  | .json j => j
  | .span d => .str d.text

/-- The value as a record keeps it. -/
def Cell.kept : Cell → Except Failure Json
  | .json j => .ok j
  | .span _ => .error .spanInRecord

/-- A value as it is. -/
def valueJson : Value → Json
  | .null => .null
  | .int n => .int n
  | .real x => .float x
  | .text s => .str s

/-- A value of a decimal column; ten places where none are declared. -/
def decimalJson (scale : Option Nat) (v : Value) : Except Failure Json :=
  match v with
  | .null => .ok .null
  | .int n => .ok (.float (Decimal.roundTo (scale.getD 10) (Decimal.ofInt n)))
  | .real x => .ok (.float (Decimal.roundTo (scale.getD 10) x))
  | .text _ => .error (.wrongKind "must be real number, not str")

/-- A value of a column of truth values. -/
def truthJson : Value → Json
  | .null => .null
  | .int n => .bool (n != 0)
  | .real x => .bool (x != 0.0)
  | .text s => .bool (s != "")

/-- A value of a column of dates or moments, read from its text. -/
def dateJson (read : String → Option String) (v : Value) : Except Failure Json :=
  match v with
  | .null => .ok .null
  | .text s => match read s with
    | some t => .ok (.str t)
    | none => .error (.badDate s)
  | _ => .error (.wrongKind "fromisoformat: argument must be str")

/-- A value of a column of spans: what lies between the start of 1970 and the moment of its text, which may
give no offset from universal time. -/
def spanCell (v : Value) : Except Failure Cell :=
  match v with
  | .null => .ok (.json .null)
  | .text s => match Calendar.storedMoment? s with
    | none => .error (.badDate s)
    | some ⟨m, none⟩ => .ok (.span (.sinceEpoch m))
    | some ⟨_, some _⟩ => .error (.wrongKind "can't subtract offset-naive and offset-aware datetimes")
  | _ => .error (.wrongKind "fromisoformat: argument must be str")

/-- A value of a result column. -/
def resultCell (t : ValueType) (v : Value) : Except Failure Cell :=
  match t with
  | .numeric scale => (decimalJson scale v).map .json
  | .boolean => .ok (.json (truthJson v))
  | .datetime => (dateJson (fun s => (Calendar.storedMoment? s).map Calendar.StoredMoment.text) v).map .json
  | .interval => spanCell v
  | .date => (dateJson (fun s => (Calendar.storedDate? s).map Calendar.Date.text) v).map .json
  | _ => .ok (.json (valueJson v))

/-- The first label that occurs twice. -/
def repeatedLabel? : List String → Option String
  | [] => none
  | l :: rest => if rest.contains l then some l else repeatedLabel? rest

/-- A result row; its labels have to differ. -/
def resultRow (labels : List String) (types : List ValueType) (values : List Value) :
    Except Failure (List (String × Cell)) := do
  let items ← (types.zip values).mapM fun (t, v) => resultCell t v
  match repeatedLabel? labels with
  | some l => .error (.ambiguousColumn l)
  | none => .ok (labels.zip items)

/-- An integer that does not fit in 64 bits. -/
def isLargeLiteral : Literal → Bool
  | .int n => !fitsInt64 n
  | _ => false

/-- The literals that a condition hands over beside the text. -/
def conditionLiterals : Condition → List Literal
  | .compare _ _ v => [v]
  | _ => []

/-- A condition that compares with a numeral in other digits than the ASCII ones, which the warehouse
does not read as a number. -/
def hasForeignDigits : Condition → Bool
  | .predicate (.compareValue _ _ (.number numeral)) => numeral.toList.any fun c => 128 ≤ c.toNat
  | _ => false

/-- What keeps a statement from being run: numerals, calls or aggregates that the warehouse does not
accept, or an integer that it cannot hold. -/
def statementFailure? (s : Statement) : Option Failure :=
  let literals := s.outputs.flatMap (fun o => o.value.literals) ++ s.conditions.flatMap conditionLiterals
  if literals.any isLargeLiteral || !fitsInt64 s.limit then some .integerTooLarge
  else if s.outputs.any (fun o => !o.value.callsFit || 1 < o.value.aggregateDepth)
      || s.conditions.any hasForeignDigits then
    some (.refused "the statement is not accepted")
  else none

/-- The columns, the values of the rows by column, and the text of a result. -/
structure ResultTable where
  columns : List String
  cells : List (List (String × Cell))
  sql : String

namespace ResultTable

/-- The rows as they are shown. -/
def rows (t : ResultTable) : List Row := t.cells.map fun row => row.map fun entry => (entry.1, entry.2.shown)

theorem length_rows (t : ResultTable) : t.rows.length = t.cells.length := List.length_map _

/-- The rows as a record keeps them; it fails if there is a span among them. -/
def keptRows (t : ResultTable) : Except Failure (List Row) :=
  t.cells.mapM fun row => row.mapM fun entry => entry.2.kept.map fun j => (entry.1, j)

end ResultTable

/-- Run a statement. -/
def Target.run (t : Target) (content : Content) (s : Statement) (sql : String) : Except Failure ResultTable := do
  match statementFailure? s with
  | some f => .error f
  | none =>
    let labels := s.outputs.map (·.label)
    let types := s.outputs.map fun o => o.value.type t.dialect
    let rows ← (s.results content).mapM (resultRow labels types)
    .ok ⟨labels, rows, sql⟩

/-- Compile and run a configuration. -/
def Target.execute (t : Target) (content : Content) (c : Config) : Except Failure ResultTable := do
  let s ← t.analytics c
  t.run content s (s.text t.dialect)

/-- Compile and run a preview request, whose text has to be a single query. -/
def Target.runPreview (t : Target) (content : Content) (r : PreviewRequest) : Except Failure PreviewResult := do
  let s ← t.preview r
  let sql ← singleSelect (s.text t.dialect)
  let result ← t.run content s sql
  .ok ⟨result.columns, result.rows, some result.sql⟩

end AdhocReport.Query
