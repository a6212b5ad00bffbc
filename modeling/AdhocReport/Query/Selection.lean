import AdhocReport.Query.Config
set_option autoImplicit false

/-!
# Queries: the selection

What the report builder has selected: models, fields, joins, filters, the active visual and derived
fields.  A preview request asks for single rows of selected columns.
-/

namespace AdhocReport.Query

/-- The active visual: the columns, by alias, that drive its metric, its dimension and its optional
comparison series. -/
structure Visual where
  metric : Option String
  metricAggregation : Aggregation
  dimension : Option String
  dimensionBucket : Option TimeBucket
  comparison : Option String
  comparisonAggregation : Option Aggregation
  deriving DecidableEq, Repr

/-- The visual when none is given. -/
def Visual.empty : Visual := ⟨none, .sum, none, none, none, none⟩

/-- The members of a visual. -/
def Visual.known : List String :=
  ["metric", "metric_aggregation", "dimension", "dimension_bucket", "comparison", "comparison_aggregation"]

/-- Read a visual. -/
def Visual.reader : Check.Reader Visual :=
  Check.record "VisualDefinition" Visual.known fun ms =>
    Visual.mk <$> Check.defaulted ms "metric" none (Check.nullable Check.text)
      <*> Check.defaulted ms "metric_aggregation" .sum (Check.choice Aggregation.codes)
      <*> Check.defaulted ms "dimension" none (Check.nullable Check.text)
      <*> Check.defaulted ms "dimension_bucket" none (Check.nullable (Check.choice TimeBucket.codes))
      <*> Check.defaulted ms "comparison" none (Check.nullable Check.text)
      <*> Check.defaulted ms "comparison_aggregation" none (Check.nullable (Check.choice Aggregation.codes))

/-- A visual as JSON. -/
def Visual.toJson (v : Visual) : Json :=
  .obj [("metric", Json.ofText? v.metric), ("metric_aggregation", .str v.metricAggregation.code),
    ("dimension", Json.ofText? v.dimension),
    ("dimension_bucket", Json.ofText? (v.dimensionBucket.map TimeBucket.code)),
    ("comparison", Json.ofText? v.comparison),
    ("comparison_aggregation", Json.ofText? (v.comparisonAggregation.map Aggregation.code))]

/-- Everything that is selected. -/
structure Selection where
  models : List String
  fields : List (String × List String)
  joins : List Join.Condition
  filters : List Filter.Spec
  visual : Visual
  derivedFieldIds : List String
  orderBy : List OrderBy
  limit : Option Int
  previewLimit : Option Int
  allowAsync : Bool
  forceAsync : Bool
  templateId : Option String
  cacheTtlSeconds : Option Int

/-- The members of a selection. -/
def Selection.known : List String :=
  ["models", "fields", "joins", "filters", "visual", "derived_field_ids", "order_by", "limit",
   "preview_limit", "allow_async", "force_async", "template_id", "cache_ttl_seconds"]

/-- Read a selection. -/
def Selection.reader : Check.Reader Selection :=
  Check.record "ReportSelection" Selection.known fun ms =>
    Selection.mk <$> Check.required ms "models" (Check.nonEmptyList Check.text)
      <*> Check.defaulted ms "fields" [] (Check.table (Check.list Check.text))
      <*> Check.defaulted ms "joins" [] (Check.list Join.Condition.reader)
      <*> Check.defaulted ms "filters" [] (Check.list Filter.Spec.reader)
      <*> Check.defaulted ms "visual" Visual.empty Visual.reader
      <*> Check.defaulted ms "derived_field_ids" [] (Check.list Check.text)
      <*> Check.defaulted ms "order_by" [] (Check.list OrderBy.reader)
      <*> Check.defaulted ms "limit" none (Check.nullable Check.integer)
      <*> Check.defaulted ms "preview_limit" none (Check.nullable Check.integer)
      <*> Check.defaulted ms "allow_async" true Check.truth
      <*> Check.defaulted ms "force_async" false Check.truth
      <*> Check.defaulted ms "template_id" none (Check.nullable Check.text)
      <*> Check.defaulted ms "cache_ttl_seconds" none (Check.nullable (Check.integerFrom 1))

/-- A selection as JSON. -/
def Selection.toJson (s : Selection) : Json :=
  .obj [("models", Json.ofTexts s.models), ("fields", .obj (s.fields.map fun f => (f.1, Json.ofTexts f.2))),
    ("joins", .arr (s.joins.map Join.Condition.toJson)), ("filters", .arr (s.filters.map Filter.Spec.toJson)),
    ("visual", s.visual.toJson), ("derived_field_ids", Json.ofTexts s.derivedFieldIds),
    ("order_by", .arr (s.orderBy.map OrderBy.toJson)), ("limit", intToJson s.limit),
    ("preview_limit", intToJson s.previewLimit), ("allow_async", .bool s.allowAsync),
    ("force_async", .bool s.forceAsync), ("template_id", Json.ofText? s.templateId),
    ("cache_ttl_seconds", intToJson s.cacheTtlSeconds)]

/-- A request for single rows. -/
structure PreviewRequest where
  models : List String
  columns : List FieldRef
  joins : List Join.Condition
  filters : List Filter.Spec
  derivedFields : List DerivedColumn
  limit : Int

/-- The members of a preview request. -/
def PreviewRequest.known : List String :=
  ["models", "columns", "joins", "filters", "derived_fields", "limit"]

/-- Read a preview request. -/
def PreviewRequest.reader : Check.Reader PreviewRequest :=
  Check.record "PreviewRequest" PreviewRequest.known fun ms =>
    PreviewRequest.mk <$> Check.required ms "models" (Check.nonEmptyList Check.text)
      <*> Check.defaulted ms "columns" [] (Check.list FieldRef.reader)
      <*> Check.defaulted ms "joins" [] (Check.list Join.Condition.reader)
      <*> Check.defaulted ms "filters" [] (Check.list Filter.Spec.reader)
      <*> Check.defaulted ms "derived_fields" [] (Check.list DerivedColumn.reader)
      <*> Check.defaulted ms "limit" 500 (Check.integerFrom 1)

/-- A preview request as JSON. -/
def PreviewRequest.toJson (r : PreviewRequest) : Json :=
  .obj [("models", Json.ofTexts r.models), ("columns", .arr (r.columns.map FieldRef.toJson)),
    ("joins", .arr (r.joins.map Join.Condition.toJson)), ("filters", .arr (r.filters.map Filter.Spec.toJson)),
    ("derived_fields", .arr (r.derivedFields.map DerivedColumn.toJson)), ("limit", .int r.limit)]

end AdhocReport.Query
