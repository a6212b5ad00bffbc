import AdhocReport.DerivedField.Request
set_option autoImplicit false

/-!
# The service: requests

Two dry runs that clients can ask for: the connectivity of a selection with the coverage of derived
fields, and the predicate texts of filters.
-/

namespace AdhocReport.Service

open AdhocReport.DerivedField

/-- A request to analyze the joins of a selection. -/
structure JoinAnalysis where
  models : List String
  joins : List Join.Condition
  fields : List Held

/-- Read a request to analyze joins. -/
def JoinAnalysis.reader : Check.Reader JoinAnalysis :=
  Check.record "JoinAnalysisRequest" ["models", "joins", "derived_fields"] fun ms =>
    JoinAnalysis.mk <$> Check.required ms "models" (Check.list Check.text)
      <*> Check.defaulted ms "joins" [] (Check.list Join.Condition.reader)
      <*> Check.defaulted ms "derived_fields" [] (Check.list Held.reader)

/-- A request to analyze joins as JSON. -/
def JoinAnalysis.toJson (r : JoinAnalysis) : Json :=
  .obj [("models", Json.ofTexts r.models), ("joins", .arr (r.joins.map Join.Condition.toJson)),
    ("derived_fields", .arr (r.fields.map Held.toJson))]

/-- The coverage of a held field: of its stored pairs if there are any, else of all pairs of the
models it depends on. -/
def heldCoverage (f : DerivedField) (keys : List String) : List Join.Coverage :=
  let models :=
    if f.referencedModels.isEmpty && f.joinDependencies.isEmpty then f.effectiveModels else f.referencedModels
  Join.coverage f.joinDependencies models keys

/-- The answer to a request to analyze joins. -/
def JoinAnalysis.answer (r : JoinAnalysis) : Json :=
  let joins := r.joins.map Join.Condition.models
  let keys := Join.pairKeys joins
  let coverage := r.fields.map fun h =>
    let pairs := heldCoverage h.toField keys
    Json.obj [("id", .str h.id), ("coverage", .arr (pairs.map Join.Coverage.toJson)),
      ("satisfied", .bool (pairs.all (·.satisfied)))]
  match (Join.analyze r.models joins).toJson with
  | .obj ms => .obj (ms ++ [("coverage", .arr coverage)])
  | j => j

/-- A request for the predicate texts of filters. -/
structure FilterCheck where
  models : List String
  filters : List Filter.Spec
  dialect : Option String

/-- Read a request for predicate texts. -/
def FilterCheck.reader : Check.Reader FilterCheck :=
  Check.record "FilterCompileRequest" ["models", "filters", "dialect"] fun ms =>
    FilterCheck.mk <$> Check.required ms "models" (Check.nonEmptyList Check.text)
      <*> Check.defaulted ms "filters" [] (Check.list Filter.Spec.reader)
      <*> Check.defaulted ms "dialect" none (Check.nullable Check.text)

/-- A request for predicate texts as JSON. -/
def FilterCheck.toJson (r : FilterCheck) : Json :=
  .obj [("models", Json.ofTexts r.models), ("filters", .arr (r.filters.map Filter.Spec.toJson)),
    ("dialect", Json.ofText? r.dialect)]

end AdhocReport.Service
