import AdhocReport.Query.Column
import AdhocReport.DerivedField.Basic
import AdhocReport.Settings
set_option autoImplicit false

/-!
# Queries: assembly

A selection is assembled into a query configuration.  What cannot be part of the query is left out,
with a warning for each thing left out; only a model that the registry does not know is an error.
-/

namespace AdhocReport.Query

open AdhocReport.Schema

/-- A missing or non-positive limit is the default one, and no limit exceeds the greatest. -/
def clampLimit (value : Option Int) (default greatest : Int) : Int :=
  let wanted := match value with
    | some n => if n ≤ 0 then default else n
    | none => default
  max 1 (min wanted greatest)

/-- The derived column of a field with a tree. -/
def derivedColumn (f : DerivedField) (tree : Expr) : Except Failure DerivedColumn :=
  (((TreeRecord.ofJson tree.toJson).under (.key "expression_ast")).map fun r =>
    DerivedColumn.mk f.id f.id f.kind r.record r.tree f.referencedModels f.joinDependencies
      f.modelGraphSignature f.compiledSqlHash r.record_tree).orFail "DerivedFieldPayload"

/-- The derived columns of the visible fields that are not stale and have a tree. -/
def derivedColumns (fields : List DerivedField) : Except Failure (List DerivedColumn) :=
  (fields.filterMap fun f =>
    if f.visible && !f.isStale then f.tree.map fun tree => (f, tree) else none).mapM fun p =>
      derivedColumn p.1 p.2

/-- The selected models, each once; all have to be known. -/
def selectedModels (s : Selection) (registry : Registry) : Except Failure (List String) :=
  let models := Collection.distinct s.models
  let unknown := models.filter fun m => !registry.hasModel m
  if unknown.isEmpty then .ok models else .error (.report (.query (.unknownModels unknown)))

/-- The joins between selected models. -/
def keptJoins (s : Selection) (models : List String) : List Join.Condition :=
  s.joins.filter fun j => models.contains j.left.model && models.contains j.right.model

/-- A field of a selected model that the registry knows. -/
def isResolvable (models : List String) (registry : Registry) (ref : FieldRef) : Bool :=
  models.contains ref.model && (registry.field? ref.model ref.field).isSome

/-- Both fields of a filter are of selected models. -/
def isKnownFilter (models : List String) (registry : Registry) (f : Filter.Spec) : Bool :=
  isResolvable models registry f.left && f.right.all (isResolvable models registry)

/-- The warnings for filters on fields that are not selected. -/
def unknownFilterWarnings (models : List String) (registry : Registry) (filters : List Filter.Spec) :
    List String :=
  ((Filter.numberedFrom 1 filters).filter fun p => !isKnownFilter models registry p.2).map fun p =>
    "Filter " ++ Decimal.natText p.1 ++ " (" ++ p.2.left.path
      ++ ") was skipped: it references a field that is not selected."

/-- The column that an alias denotes: of several the last one. -/
def columnOfAlias (columns : List ColumnOption) (outputAlias : Option String) : Option ColumnOption :=
  outputAlias.bind fun a => columns.reverse.find? fun c => c.outputAlias == a

/-- The metric of a column. -/
def metricOf (c : ColumnOption) (a : Aggregation) : Metric := ⟨c.ref, a, metricAlias c.outputAlias a⟩

/-- The comparison series, with the warning when it is left out. -/
def comparisonSeries (v : Visual) (columns : List ColumnOption) (primary : Option ColumnOption) :
    List Metric × List String :=
  match v.comparison with
  | none => ([], [])
  | some "" => ([], [])
  | some outputAlias =>
    match primary, columnOfAlias columns v.comparison with
    | none, _ => ([], ["Comparison series was ignored: no primary metric is selected."])
    | some _, none =>
      ([], ["Comparison series '" ++ outputAlias ++ "' could not be resolved and was ignored."])
    | some p, some c =>
      if c.outputAlias == p.outputAlias then
        ([], ["Comparison series must use a different field than the primary metric; it was ignored."])
      else ([metricOf c (v.comparisonAggregation.getD v.metricAggregation)], [])

/-- The grouping column, with a warning when its bucket does not apply. -/
def grouping (v : Visual) (columns : List ColumnOption) : List Dimension × List String :=
  match columnOfAlias columns v.dimension with
  | none => ([], [])
  | some c =>
    match v.dimensionBucket with
    | none => ([⟨c.ref, none, dimensionAlias c.outputAlias none⟩], [])
    | some b =>
      if c.type == .date then ([⟨c.ref, some b, dimensionAlias c.outputAlias (some b)⟩], [])
      else ([⟨c.ref, none, dimensionAlias c.outputAlias none⟩],
        ["Time bucket '" ++ b.code ++ "' ignored: " ++ c.label ++ " is not a date field."])

/-- Why a requested derived field is left out. -/
def skipReason (f : DerivedField) : Option String :=
  if f.isStale then some "it is stale"
  else if !f.visible then some "it is hidden"
  else if f.tree.isNone then some "its expression does not parse"
  else none

/-- The warning that names a derived field. -/
def skippedField (id reason : String) : String :=
  "Derived field '" ++ id ++ "' was skipped: " ++ reason ++ "."

/-- Keep the derived columns whose aliases are free, with a warning for each other one. -/
def withFreeAliases : List String → List DerivedColumn → List DerivedColumn × List String
  | _, [] => ([], [])
  | taken, d :: rest =>
    if taken.contains d.outputAlias then
      let (kept, warnings) := withFreeAliases taken rest
      (kept, skippedField d.id "its alias collides with another column" :: warnings)
    else
      let (kept, warnings) := withFreeAliases (d.outputAlias :: taken) rest
      (d :: kept, warnings)

/-- The fields that were asked for; without a request, all of them. -/
def candidates (fields : List DerivedField) (wanted : List String) : List DerivedField :=
  if wanted.isEmpty then fields else fields.filter fun f => wanted.contains f.id

/-- The warnings for requested fields that do not exist or cannot be part of a query. -/
def requestWarnings (wanted : List String) (fields : List DerivedField) : List String :=
  ((Collection.sortedSet wanted).filter fun id => !(fields.map (·.id)).contains id).map
      (fun id => skippedField id "it does not exist")
    ++ (fields.filter fun f => wanted.contains f.id).filterMap fun f =>
        (skipReason f).map (skippedField f.id)

/-- The orders by output columns; without any, the first metric descending. -/
def keptOrder (s : Selection) (aliases : List String) (metrics : List Metric) : List OrderBy × List String :=
  let kept := s.orderBy.filter fun o => aliases.contains o.outputAlias
  let warnings := if kept.length == s.orderBy.length then []
    else ["Ordering on columns that are not part of the query was dropped."]
  match kept, metrics with
  | [], m :: _ => ([⟨m.outputAlias, .desc⟩], warnings)
  | _, _ => (kept, warnings)

/-- A configuration, the repaired visual, and a warning for everything left out. -/
structure Assembly where
  config : Config
  visual : Visual
  warnings : List String

/-- Refuse a configuration whose parts do not fit together. -/
def Config.checked (c : Config) : Except Failure Config :=
  match c.objection with
  | some text => .error (.invalid ⟨"QueryConfig", [⟨[], .rejected text⟩]⟩)
  | none => .ok c

/-- Assemble the configuration of a selection. -/
def assemble (s : Selection) (fields : List DerivedField) (registry : Registry) (settings : Settings) :
    Except Failure Assembly := do
  let models ← selectedModels s registry
  let columns := availableColumns s registry
  let visual := repairVisual s.visual columns
  let primary := columnOfAlias columns visual.metric
  let (series, seriesWarnings) := comparisonSeries visual columns primary
  let metrics := primary.toList.map (metricOf · visual.metricAggregation) ++ series
  let (dimensions, bucketWarnings) := grouping visual columns
  let reduction := Filter.reduce (s.filters.filter (isKnownFilter models registry))
  let wanted := s.derivedFieldIds
  let chosen := DerivedField.reconcile (candidates fields wanted) models
  let columnsOfFields ← derivedColumns chosen
  let (derived, collisions) :=
    withFreeAliases (metrics.map (·.outputAlias) ++ dimensions.map (·.outputAlias)) columnsOfFields
  let aliases := metrics.map (·.outputAlias) ++ dimensions.map (·.outputAlias) ++ derived.map (·.outputAlias)
  let (orderBy, orderWarnings) := keptOrder s aliases metrics
  let config ← (Config.mk models (keptJoins s models) reduction.filters metrics dimensions derived orderBy
    (clampLimit s.limit settings.analyticsDefaultLimit settings.maxRowLimit)
    ⟨s.allowAsync, s.forceAsync, s.templateId, s.cacheTtlSeconds⟩).checked
  .ok ⟨config, visual,
    seriesWarnings ++ bucketWarnings ++ unknownFilterWarnings models registry s.filters ++ reduction.warnings
      ++ requestWarnings wanted chosen ++ collisions ++ orderWarnings⟩

/-- The preview of a selection: its columns as single rows, with the full set of filters. -/
def previewOf (s : Selection) (fields : List DerivedField) (registry : Registry) (settings : Settings) :
    Except Failure PreviewRequest := do
  let models ← selectedModels s registry
  let derived ← derivedColumns (DerivedField.reconcile (candidates fields s.derivedFieldIds) models)
  .ok ⟨models, (availableColumns s registry).map (·.ref), keptJoins s models, s.filters, derived,
    clampLimit s.previewLimit settings.previewDefaultLimit settings.maxRowLimit⟩

end AdhocReport.Query
