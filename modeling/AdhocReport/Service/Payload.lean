import AdhocReport.Service.Request
import AdhocReport.Query.Selection
import AdhocReport.Query.Response
set_option autoImplicit false

/-!
# The service: payloads by title

Every payload that travels has a title, members, a check and a form in which it is written.
-/

namespace AdhocReport.Service

open AdhocReport.Query AdhocReport.DerivedField

/-- A payload that was checked: its written form and the members that were given. -/
structure Payload where
  value : Json
  given : List String

/-- Check a payload of a title. -/
def payloadOf {α : Type} (title : String) (known : List String) (r : Check.Reader α) (write : α → Json)
    (j : Json) : Except Failure Payload :=
  ((r j).orFail title).map fun a => ⟨write a, Check.givenMembers known j⟩

/-- The checks of the payloads by title. -/
def payloadChecks : List (String × (Json → Except Failure Payload)) :=
  let entry := fun {α : Type} (title : String) (known : List String) (r : Check.Reader α) (write : α → Json) =>
    (title, payloadOf title known r write)
  [entry "FieldRef" ["model_id", "field_id"] FieldRef.reader FieldRef.toJson,
   entry "ReportFilter" Filter.Spec.known Filter.Spec.reader Filter.Spec.toJson,
   entry "JoinCondition" Join.Condition.known Join.Condition.reader Join.Condition.toJson,
   entry "QueryConfigFilter" ["left", "operator", "value"] Filter.Comparison.reader Filter.Comparison.toJson,
   entry "MetricSpec" ["model_id", "field_id", "aggregation", "alias"] Metric.reader Metric.toJson,
   entry "DimensionSpec" ["model_id", "field_id", "bucket", "alias"] Dimension.reader Dimension.toJson,
   entry "DerivedFieldPayload" DerivedColumn.known DerivedColumn.reader DerivedColumn.toJson,
   entry "OrderBy" ["alias", "direction"] OrderBy.reader OrderBy.toJson,
   entry "QueryOptions" ["allow_async", "force_async", "template_id", "cache_ttl_seconds"] Options.reader
     Options.toJson,
   entry "QueryConfig" Config.known Config.reader Config.toJson,
   entry "VisualDefinition" Visual.known Visual.reader Visual.toJson,
   entry "ReportSelection" Selection.known Selection.reader Selection.toJson,
   entry "PreviewRequest" PreviewRequest.known PreviewRequest.reader PreviewRequest.toJson,
   entry "ResultMeta" ResultMeta.known ResultMeta.reader ResultMeta.toJson,
   entry "ImmediateResult" ["columns", "rows", "sql", "meta"] ImmediateResult.reader ImmediateResult.toJson,
   entry "JobDescriptor" ["job_id", "hash", "status", "error"] JobDescriptor.reader JobDescriptor.toJson,
   entry "PreviewResult" ["columns", "rows", "sql"] PreviewResult.reader PreviewResult.toJson,
   entry "DerivedFieldCreate" Draft.known (Draft.reader "DerivedFieldCreate") Draft.toJson,
   entry "DerivedFieldBase" Draft.known (Draft.reader "DerivedFieldBase") Draft.toJson,
   entry "DerivedFieldUpdate" Change.known Change.reader Change.toJson,
   entry "ReconcileFieldInput" Held.known Held.reader Held.toJson,
   entry "ReconcileRequest" ["models", "joins", "field_ids", "template_id", "fields"] Recheck.reader Recheck.toJson,
   entry "JoinAnalysisRequest" ["models", "joins", "derived_fields"] JoinAnalysis.reader JoinAnalysis.toJson,
   entry "FilterCompileRequest" ["models", "filters", "dialect"] FilterCheck.reader FilterCheck.toJson]

/-- Check a payload by its title; none if there is no such title. -/
def checkPayload (title : String) (j : Json) : Option (Except Failure Payload) :=
  (payloadChecks.lookup title).map fun check => check j

end AdhocReport.Service
