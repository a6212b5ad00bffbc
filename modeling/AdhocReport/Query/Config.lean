import AdhocReport.DerivedField.Request
import AdhocReport.Filter.Comparison
import AdhocReport.Digest.Sha256
set_option autoImplicit false

/-!
# Queries: the configuration

A query configuration is the canonical form of one aggregated query.  Its parts name only selected
models, its output aliases are unique, and it orders by these aliases alone.  Equal configurations
have equal hashes, which identify their jobs and cached results.
-/

namespace AdhocReport.Query

/-- How a metric combines the values of a group. -/
inductive Aggregation where
  | sum
  | avg
  | min
  | max
  | count
  | countDistinct
  deriving DecidableEq, Repr

/-- The period that a dimension groups dates by. -/
inductive TimeBucket where
  | hour
  | day
  | week
  | month
  | quarter
  | year
  deriving DecidableEq, Repr

/-- The direction of an order. -/
inductive Direction where
  | asc
  | desc
  deriving DecidableEq, Repr

/-- The code of an aggregation. -/
def Aggregation.code : Aggregation → String
  | .sum => "sum"
  | .avg => "avg"
  | .min => "min"
  | .max => "max"
  | .count => "count"
  | .countDistinct => "count_distinct"

/-- The codes of the aggregations. -/
def Aggregation.codes : List (String × Aggregation) :=
  [Aggregation.sum, .avg, .min, .max, .count, .countDistinct].map fun a => (a.code, a)

/-- The aggregation counts rows and takes any field. -/
def Aggregation.isCounting : Aggregation → Bool
  | .count => true
  | .countDistinct => true
  | _ => false

/-- The code of a bucket. -/
def TimeBucket.code : TimeBucket → String
  | .hour => "hour"
  | .day => "day"
  | .week => "week"
  | .month => "month"
  | .quarter => "quarter"
  | .year => "year"

/-- The codes of the buckets. -/
def TimeBucket.codes : List (String × TimeBucket) :=
  [TimeBucket.hour, .day, .week, .month, .quarter, .year].map fun b => (b.code, b)

/-- The code of a direction. -/
def Direction.code : Direction → String
  | .asc => "asc"
  | .desc => "desc"

/-- The codes of the directions. -/
def Direction.codes : List (String × Direction) := [("asc", .asc), ("desc", .desc)]

/-- An aggregated field. -/
structure Metric where
  ref : FieldRef
  aggregation : Aggregation
  outputAlias : String
  deriving DecidableEq, Repr

/-- A field to group by. -/
structure Dimension where
  ref : FieldRef
  bucket : Option TimeBucket
  outputAlias : String
  deriving DecidableEq, Repr

/-- A derived field as it travels with a query: the record of its tree, and the tree that the
record denotes. -/
structure DerivedColumn where
  id : String
  outputAlias : String
  kind : DerivedField.Kind
  record : Json
  tree : Expr
  referencedModels : List String
  joinDependencies : List (String × String)
  modelGraphSignature : Option String
  compiledSqlHash : Option String
  /-- The record denotes the tree. -/
  record_tree : Expr.ofJson record = .ok tree

/-- An order by an output alias. -/
structure OrderBy where
  outputAlias : String
  direction : Direction
  deriving DecidableEq, Repr

/-- How a query may be run. -/
structure Options where
  allowAsync : Bool
  forceAsync : Bool
  templateId : Option String
  cacheTtlSeconds : Option Int
  deriving DecidableEq, Repr

/-- The options when none are given. -/
def Options.standard : Options := ⟨true, false, none, none⟩

/-- The canonical form of a query. -/
structure Config where
  models : List String
  joins : List Join.Condition
  filters : List Filter.Comparison
  metrics : List Metric
  dimensions : List Dimension
  derivedFields : List DerivedColumn
  orderBy : List OrderBy
  limit : Int
  options : Options

/-- Read a metric. -/
def Metric.reader : Check.Reader Metric :=
  Check.record "MetricSpec" ["model_id", "field_id", "aggregation", "alias"] fun ms =>
    (fun m f a outputAlias => Metric.mk ⟨m, f⟩ a outputAlias) <$> Check.required ms "model_id" Check.text
      <*> Check.required ms "field_id" Check.text
      <*> Check.defaulted ms "aggregation" .sum (Check.choice Aggregation.codes)
      <*> Check.required ms "alias" Check.text

/-- A metric as JSON. -/
def Metric.toJson (m : Metric) : Json :=
  .obj [("model_id", .str m.ref.model), ("field_id", .str m.ref.field),
    ("aggregation", .str m.aggregation.code), ("alias", .str m.outputAlias)]

/-- Read a dimension. -/
def Dimension.reader : Check.Reader Dimension :=
  Check.record "DimensionSpec" ["model_id", "field_id", "bucket", "alias"] fun ms =>
    (fun m f b outputAlias => Dimension.mk ⟨m, f⟩ b outputAlias) <$> Check.required ms "model_id" Check.text
      <*> Check.required ms "field_id" Check.text
      <*> Check.defaulted ms "bucket" none (Check.nullable (Check.choice TimeBucket.codes))
      <*> Check.required ms "alias" Check.text

/-- A dimension as JSON. -/
def Dimension.toJson (d : Dimension) : Json :=
  .obj [("model_id", .str d.ref.model), ("field_id", .str d.ref.field),
    ("bucket", Json.ofText? (d.bucket.map TimeBucket.code)), ("alias", .str d.outputAlias)]

/-- A record with the tree that it denotes. -/
structure TreeRecord where
  record : Json
  tree : Expr
  record_tree : Expr.ofJson record = .ok tree

/-- Read the record of a tree: an object that denotes one.  A malformed record is an issue; a
failure of the reading itself stops the check. -/
def TreeRecord.ofJson (j : Json) : Check.Checked TreeRecord :=
  match h : Expr.ofJson j with
  | .ok tree => .valid ⟨j, tree, h⟩
  | .error fault => if fault.isMalformed then .fail (.rejected fault.message) else .stopped fault

/-- Read the record of a tree, which has to be an object. -/
def TreeRecord.reader : Check.Reader TreeRecord := fun j =>
  (Check.object j).andThen fun _ => TreeRecord.ofJson j

namespace DerivedColumn

/-- The members of a derived column. -/
def known : List String :=
  ["id", "alias", "kind", "expression_ast", "referenced_models", "join_dependencies",
   "model_graph_signature", "compiled_sql_hash"]

/-- Read a derived column. -/
def reader : Check.Reader DerivedColumn :=
  Check.record "DerivedFieldPayload" known fun ms =>
    (fun id outputAlias kind r models pairs signature hash =>
        DerivedColumn.mk id outputAlias kind r.record r.tree models pairs signature hash r.record_tree)
      <$> Check.required ms "id" Check.text
      <*> Check.required ms "alias" Check.text
      <*> Check.defaulted ms "kind" .row (Check.choice DerivedField.Kind.codes)
      <*> Check.required ms "expression_ast" TreeRecord.reader
      <*> Check.defaulted ms "referenced_models" [] (Check.list Check.text)
      <*> Check.defaulted ms "join_dependencies" [] (Check.list (Check.pair Check.text))
      <*> Check.defaulted ms "model_graph_signature" none (Check.nullable Check.text)
      <*> Check.defaulted ms "compiled_sql_hash" none (Check.nullable Check.text)

/-- A derived column as JSON.  The record of its tree is free in its form, and what is free in its form
has null for the numbers that are not finite. -/
def toJson (d : DerivedColumn) : Json :=
  .obj [("id", .str d.id), ("alias", .str d.outputAlias), ("kind", .str d.kind.code),
    ("expression_ast", d.record.finite), ("referenced_models", Json.ofTexts d.referencedModels),
    ("join_dependencies", DerivedField.pairsToJson d.joinDependencies),
    ("model_graph_signature", Json.ofText? d.modelGraphSignature),
    ("compiled_sql_hash", Json.ofText? d.compiledSqlHash)]

end DerivedColumn

/-- Read an order. -/
def OrderBy.reader : Check.Reader OrderBy :=
  Check.record "OrderBy" ["alias", "direction"] fun ms =>
    OrderBy.mk <$> Check.required ms "alias" Check.text
      <*> Check.defaulted ms "direction" .desc (Check.choice Direction.codes)

/-- An order as JSON. -/
def OrderBy.toJson (o : OrderBy) : Json :=
  .obj [("alias", .str o.outputAlias), ("direction", .str o.direction.code)]

/-- Read options. -/
def Options.reader : Check.Reader Options :=
  Check.record "QueryOptions" ["allow_async", "force_async", "template_id", "cache_ttl_seconds"] fun ms =>
    Options.mk <$> Check.defaulted ms "allow_async" true Check.truth
      <*> Check.defaulted ms "force_async" false Check.truth
      <*> Check.defaulted ms "template_id" none (Check.nullable Check.text)
      <*> Check.defaulted ms "cache_ttl_seconds" none (Check.nullable (Check.integerFrom 1))

/-- A number, or null when there is none. -/
def intToJson (n : Option Int) : Json := (n.map Json.int).getD .null

/-- Options as JSON. -/
def Options.toJson (o : Options) : Json :=
  .obj [("allow_async", .bool o.allowAsync), ("force_async", .bool o.forceAsync),
    ("template_id", Json.ofText? o.templateId), ("cache_ttl_seconds", intToJson o.cacheTtlSeconds)]

namespace Config

/-- The aliases of the output columns: dimensions, metrics, derived fields. -/
def outputAliases (c : Config) : List String :=
  c.dimensions.map (·.outputAlias) ++ c.metrics.map (·.outputAlias) ++ c.derivedFields.map (·.outputAlias)

/-- The first list holds an entry twice. -/
def hasRepeats (xs : List String) : Bool := (Collection.distinct xs).length != xs.length

/-- The objection to a configuration whose parts do not fit together. -/
def objection (c : Config) : Option String :=
  if hasRepeats c.models then some "Model ids must be unique"
  else
    let known := fun m => c.models.contains m
    let outside := " references a model that is not selected"
    match c.joins.find? fun j => !(known j.left.model && known j.right.model) with
    | some j => some ("Join " ++ j.left.path ++ " = " ++ j.right.path ++ outside)
    | none =>
    match (c.metrics.map (·.ref) ++ c.dimensions.map (·.ref)).find? fun r => !known r.model with
    | some r => some ("Column " ++ r.path ++ outside)
    | none =>
    match c.filters.find? fun f => !known f.left.model with
    | some f => some ("Filter on " ++ f.left.path ++ outside)
    | none =>
      let aliases := c.outputAliases
      if hasRepeats aliases then
        some ("Output aliases must be unique: "
          ++ Json.joined ", " (Collection.sortedSet (aliases.filter fun a => 1 < aliases.count a)))
      else match c.orderBy.find? fun o => !aliases.contains o.outputAlias with
        | some o => some ("Cannot order by unknown alias '" ++ o.outputAlias ++ "'")
        | none => none

/-- The members of a configuration. -/
def known : List String :=
  ["models", "joins", "filters", "metrics", "dimensions", "derived_fields", "order_by", "limit", "options"]

/-- Read a configuration. -/
def reader : Check.Reader Config := fun j =>
  (Check.record "QueryConfig" known (fun ms =>
    Config.mk <$> Check.required ms "models" (Check.nonEmptyList Check.text)
      <*> Check.defaulted ms "joins" [] (Check.list Join.Condition.reader)
      <*> Check.defaulted ms "filters" [] (Check.list Filter.Comparison.reader)
      <*> Check.defaulted ms "metrics" [] (Check.list Metric.reader)
      <*> Check.defaulted ms "dimensions" [] (Check.list Dimension.reader)
      <*> Check.defaulted ms "derived_fields" [] (Check.list DerivedColumn.reader)
      <*> Check.defaulted ms "order_by" [] (Check.list OrderBy.reader)
      <*> Check.defaulted ms "limit" 100 (Check.integerFrom 1)
      <*> Check.defaulted ms "options" Options.standard Options.reader) j).refusing objection

/-- A configuration as JSON. -/
def toJson (c : Config) : Json :=
  .obj [("models", Json.ofTexts c.models), ("joins", .arr (c.joins.map Join.Condition.toJson)),
    ("filters", .arr (c.filters.map Filter.Comparison.toJson)),
    ("metrics", .arr (c.metrics.map Metric.toJson)),
    ("dimensions", .arr (c.dimensions.map Dimension.toJson)),
    ("derived_fields", .arr (c.derivedFields.map DerivedColumn.toJson)),
    ("order_by", .arr (c.orderBy.map OrderBy.toJson)), ("limit", .int c.limit),
    ("options", c.options.toJson)]

end Config

/-- The digest of a payload's canonical text. -/
def payloadHash (j : Json) : String := Digest.sha256 j.canonical

/-- The hash that identifies a configuration's jobs and results. -/
def Config.hash (c : Config) : String := payloadHash c.toJson

/-- The derived columns that refer to a model outside the selection, by id. -/
def staleIds (models : List String) (columns : List DerivedColumn) : List String :=
  (columns.filter fun d =>
    !((d.referencedModels ++ d.tree.columns.map (·.model)).all models.contains)).map (·.id)

/-- Refuse derived columns that do not fit the selection. -/
def ensureCurrent (models : List String) (columns : List DerivedColumn) : Except ReportError Unit :=
  let stale := staleIds models columns
  if stale.isEmpty then .ok () else .error (.stale stale)

end AdhocReport.Query
