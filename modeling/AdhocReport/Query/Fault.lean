import AdhocReport.Schema.FieldType
import AdhocReport.Filter.Basic
import AdhocReport.Json.Shown
set_option autoImplicit false

/-!
# Queries: what keeps a query from being compiled

Each fault names the part of the query that does not fit the schema or the joins.
-/

namespace AdhocReport.Query

/-- Why a query does not compile. -/
inductive Fault where
  | unknownModels (ids : List String)
  | unknownModel (id : String)
  | unmappedModel (id : String)
  | modelNotInQuery (id : String)
  | unknownField (ref : FieldRef)
  | disconnected (models : List String)
  | bucketOnOtherType (ref : FieldRef) (type : FieldType)
  | metricOnOtherType (aggregation : String) (ref : FieldRef)
  | emptyProjection
  | emptyPreview
  | statementCount (n : Nat)
  | notSelect
  deriving DecidableEq, Repr

/-- The wording of a fault. -/
def Fault.message : Fault → String
  | .unknownModels ids => "Unknown models: " ++ Json.joined ", " ids
  | .unknownModel id => "Unknown model '" ++ id ++ "'"
  | .unmappedModel id => "No table is mapped for model '" ++ id ++ "'"
  | .modelNotInQuery id => "Model '" ++ id ++ "' is not part of the query"
  | .unknownField ref => "Unknown field '" ++ ref.path ++ "'"
  | .disconnected models => "Selected models are not connected by joins: " ++ Json.joined ", " models
  | .bucketOnOtherType ref type =>
    "Time bucket requires a date field, " ++ ref.path ++ " is " ++ type.code
  | .metricOnOtherType aggregation ref => "Cannot " ++ aggregation ++ " non-numeric field " ++ ref.path
  | .emptyProjection => "The query selects no metrics, dimensions or derived fields"
  | .emptyPreview => "Select at least one column to preview"
  | .statementCount n => "Generated SQL must be a single statement, got " ++ Decimal.natText n
  | .notSelect => "Generated SQL must be a SELECT statement"

end AdhocReport.Query
