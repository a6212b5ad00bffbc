import AdhocReport.Query.JoinPlan
import AdhocReport.Query.Column
import AdhocReport.Sql.Statement
set_option autoImplicit false

/-!
# Queries: compilation to statements

A configuration and a preview request are compiled to statements over the same joins.  Everything is
looked up by id: models in the registry, tables by the models' table names, and columns by the
fields' column names.
-/

namespace AdhocReport.Query

open AdhocReport.Sql

/-- What statements are compiled against. -/
structure Target where
  registry : Schema.Registry
  tables : List Schema.Table
  dialect : Dialect
  /-- No statement returns more rows, when there is a bound. -/
  rowLimit : Option Int

/-- The selected models with their tables. -/
structure Scope where
  registry : Schema.Registry
  tables : List (String × Schema.Table)

/-- A fault of a query. -/
def faulty {α : Type} (f : Fault) : Except Failure α := .error (.report (.query f))

/-- The table of a selected model. -/
def Target.table (t : Target) (model : String) : Except Failure (String × Schema.Table) :=
  match t.registry.model? model with
  | none => faulty (.unknownModel model)
  | some m =>
    match t.tables.find? fun table => table.name == m.tableName with
    | none => faulty (.unmappedModel model)
    | some table => .ok (model, table)

/-- The tables of a selection. -/
def Target.scope (t : Target) (models : List String) : Except Failure Scope := do
  .ok ⟨t.registry, ← models.mapM t.table⟩

/-- A field with the column behind it. -/
structure Located where
  column : ColumnUse
  field : Schema.Field

/-- The column behind a field. -/
def Scope.locate (s : Scope) (ref : FieldRef) : Except Failure Located :=
  match s.tables.lookup ref.model with
  | none => faulty (.modelNotInQuery ref.model)
  | some table =>
    match s.registry.field? ref.model ref.field with
    | none => faulty (.unknownField ref)
    | some f =>
      match table.column? f.backingColumn with
      | none => .error (.missingKey f.backingColumn)
      | some c => .ok ⟨⟨ref.model, c⟩, f⟩

/-- The equality that a join demands. -/
def Scope.equality (s : Scope) (j : Join.Condition) : Except Failure Equality := do
  let left ← s.locate j.left
  let right ← s.locate j.right
  .ok ⟨left.column, right.column⟩

/-- The source and the conditions on rows that the steps taken so far give. -/
structure Joined where
  source : Source
  conditions : List Equality

/-- Attach a table: a left or right join keeps the rows of the side it names. -/
def attach (source : Source) (j : Join.Condition) (model : String) (table : Schema.Table) (on : Equality) :
    Source :=
  let fresh := Source.table model table
  match j.kind with
  | .inner => .join .inner source fresh on
  | .full => .join .full source fresh on
  | .left => if j.left.model == model then .join .left fresh source on else .join .left source fresh on
  | .right => if j.right.model == model then .join .left fresh source on else .join .left source fresh on

/-- Take one step of joining. -/
def Scope.takeStep (s : Scope) (acc : Joined) (step : JoinStep) : Except Failure Joined := do
  let on ← s.equality step.join
  match step with
  | .close _ => .ok { acc with conditions := acc.conditions ++ [on] }
  | .attach j model =>
    match s.tables.lookup model with
    | some table => .ok { acc with source := attach acc.source j model table on }
    | none => faulty (.modelNotInQuery model)

/-- Join the selected models, starting with the first. -/
def Scope.join (s : Scope) (models : List String) (joins : List Join.Condition) : Except Failure Joined := do
  let analysis := Join.analyze models (joins.map Join.Condition.models)
  if !analysis.isConnected then faulty (.disconnected analysis.disconnected)
  else match s.tables with
  | [] => faulty (.modelNotInQuery "")
  | (model, table) :: _ => (joinPlan models joins).foldlM s.takeStep ⟨.table model table, []⟩

mutual

/-- Compile the tree of a derived field; `column` says what stands for a field. -/
def scalarOf (d : Dialect) (column : FieldRef → Except Failure Scalar) : Expr → Except Failure Scalar
  | .column ref => column ref
  | .literal v => .ok (.literal v)
  | .unary .minus e => do .ok (.negated (← scalarOf d column e))
  | .unary .plus e => scalarOf d column e
  | .binary op l r => do
    let left ← scalarOf d column l
    let right ← scalarOf d column r
    .ok (Scalar.operation d op left right)
  | .call f args => do .ok (.call f (← scalarsOf d column args))
termination_by structural e => e

/-- Compile arguments. -/
def scalarsOf (d : Dialect) (column : FieldRef → Except Failure Scalar) :
    List Expr → Except Failure (List Scalar)
  | [] => .ok []
  | e :: rest => do
    let first ← scalarOf d column e
    .ok (first :: (← scalarsOf d column rest))
termination_by structural args => args

end

/-- The column of a field as an expression. -/
def Scope.scalar (s : Scope) (ref : FieldRef) : Except Failure Scalar := do
  .ok (.column (← s.locate ref).column)

/-- The sum of a field's column. -/
def Scope.summed (s : Scope) (ref : FieldRef) : Except Failure Scalar := do
  .ok (.aggregate .sum (.column (← s.locate ref).column))

/-- A derived field as an output.  Within groups, a row field is summed as a whole, and an aggregate
field is computed from sums of its columns. -/
def Scope.derived (s : Scope) (d : Dialect) (grouped : Bool) (f : DerivedColumn) : Except Failure Output := do
  match grouped, f.kind with
  | false, _ => .ok ⟨f.outputAlias, ← scalarOf d s.scalar f.tree⟩
  | true, .row => .ok ⟨f.outputAlias, .aggregate .sum (← scalarOf d s.scalar f.tree)⟩
  | true, .aggregate => .ok ⟨f.outputAlias, ← scalarOf d s.summed f.tree⟩

/-- A dimension as an output; only dates have periods. -/
def Scope.dimension (s : Scope) (dim : Dimension) : Except Failure Output := do
  let found ← s.locate dim.ref
  match dim.bucket with
  | none => .ok ⟨dim.outputAlias, .column found.column⟩
  | some b =>
    if found.field.type == .date then .ok ⟨dim.outputAlias, .period b found.column⟩
    else faulty (.bucketOnOtherType dim.ref found.field.type)

/-- A metric as an output; only counts take fields that are not numeric. -/
def Scope.metric (s : Scope) (m : Metric) : Except Failure Output := do
  let found ← s.locate m.ref
  if m.aggregation.isCounting || found.field.type.isNumeric then
    .ok ⟨m.outputAlias, .aggregate m.aggregation (.column found.column)⟩
  else faulty (.metricOnOtherType m.aggregation.code m.ref)

/-- A comparison as a condition; truth values have no order. -/
def Scope.condition (s : Scope) (f : Filter.Comparison) : Except Failure Condition := do
  let found ← s.locate f.left
  match f.value, f.comparator with
  | .truth _, .gt => .error .orderedTruth
  | .truth _, .gte => .error .orderedTruth
  | .truth _, .lt => .error .orderedTruth
  | .truth _, .lte => .error .orderedTruth
  | v, c => .ok (.compare found.column c v)

/-- The number of rows asked for, within the bound. -/
def Target.limit (t : Target) (requested : Int) : Int :=
  match t.rowLimit with
  | none => requested
  | some n => min requested n

/-- Refuse derived fields that do not fit the selection. -/
def current (models : List String) (columns : List DerivedColumn) : Except Failure Unit :=
  (ensureCurrent models columns).mapError .report

/-- Compile a configuration. -/
def Target.analytics (t : Target) (c : Config) : Except Failure Statement := do
  current c.models c.derivedFields
  let scope ← t.scope c.models
  let joined ← scope.join c.models c.joins
  let grouped := !(c.metrics.isEmpty && c.dimensions.isEmpty)
  let keys ← c.dimensions.mapM scope.dimension
  let metrics ← c.metrics.mapM scope.metric
  let derived ← c.derivedFields.mapM (scope.derived t.dialect grouped)
  if keys.isEmpty && metrics.isEmpty && derived.isEmpty then faulty .emptyProjection
  else
    let conditions ← c.filters.mapM scope.condition
    .ok ⟨keys, metrics ++ derived, joined.source, joined.conditions.map .equal ++ conditions, c.orderBy,
      t.limit c.limit⟩

/-- A column of a preview as an output, labelled by its alias. -/
def Scope.previewColumn (s : Scope) (ref : FieldRef) : Except Failure Output := do
  let found ← s.locate ref
  .ok ⟨columnAlias ⟨ref.model, found.field.id⟩, .column found.column⟩

/-- Compile a preview request; its filters become predicates, and all bad filters are named. -/
def Target.preview (t : Target) (r : PreviewRequest) : Except Failure Statement := do
  current r.models r.derivedFields
  let scope ← t.scope r.models
  let joined ← scope.join r.models r.joins
  let columns ← r.columns.mapM scope.previewColumn
  let derived ← r.derivedFields.mapM (scope.derived t.dialect false)
  if columns.isEmpty && derived.isEmpty then faulty .emptyPreview
  else
    let compilation := Filter.compile r.filters (r.models.map fun m => (m, m)) t.registry
    if !compilation.errors.isEmpty then .error (.report (.badFilters compilation.errors))
    else .ok ⟨[], columns ++ derived, joined.source,
      joined.conditions.map .equal ++ compilation.predicates.map .predicate, [], t.limit r.limit⟩

end AdhocReport.Query
