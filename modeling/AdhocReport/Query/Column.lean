import AdhocReport.Query.Selection
import AdhocReport.Schema.Registry
set_option autoImplicit false

/-!
# Queries: selected columns

Each selected field of a selected model is a column, known by its alias.  The visual picks a numeric
column for its metric and another kind of column for its dimension; when the columns change, picks
that are gone are replaced.
-/

namespace AdhocReport.Query

open AdhocReport.Schema

/-- The alias of a selected field. -/
def columnAlias (ref : FieldRef) : String := ref.model ++ "__" ++ ref.field

/-- The alias of an aggregated column. -/
def metricAlias (base : String) (a : Aggregation) : String := base ++ "_" ++ a.code

/-- The alias of a grouping column. -/
def dimensionAlias (base : String) (bucket : Option TimeBucket) : String :=
  match bucket with
  | none => base
  | some b => base ++ "_" ++ b.code

/-- A selected column. -/
structure ColumnOption where
  outputAlias : String
  ref : FieldRef
  label : String
  type : FieldType
  deriving DecidableEq, Repr

/-- A column as JSON. -/
def ColumnOption.toJson (c : ColumnOption) : Json :=
  .obj [("alias", .str c.outputAlias), ("model_id", .str c.ref.model), ("field_id", .str c.ref.field),
    ("label", .str c.label), ("type", .str c.type.code)]

/-- The column of a field. -/
def columnOption (m : Model) (id : String) (f : Field) : ColumnOption :=
  ⟨columnAlias ⟨id, f.id⟩, ⟨id, f.id⟩, m.name ++ " " ++ f.label, f.type⟩

/-- The columns of one selected model. -/
def columnsOf (registry : Registry) (s : Selection) (model : String) : List ColumnOption :=
  match registry.model? model with
  | none => []
  | some m => ((s.fields.lookup model).getD []).filterMap fun id => (m.field? id).map (columnOption m model)

/-- The selected columns in selection order; ids that the registry does not know are skipped. -/
def availableColumns (s : Selection) (registry : Registry) : List ColumnOption :=
  (Collection.distinct s.models).flatMap (columnsOf registry s)

/-- The aliases of the numeric columns. -/
def numericAliases (columns : List ColumnOption) : List String :=
  (columns.filter (·.type.isNumeric)).map (·.outputAlias)

/-- The aliases of the other columns. -/
def textualAliases (columns : List ColumnOption) : List String :=
  (columns.filter fun c => !c.type.isNumeric).map (·.outputAlias)

/-- A pick that is among the candidates, else the first candidate. -/
def keepOrFirst (pick : Option String) (candidates : List String) : Option String :=
  match pick with
  | some a => if candidates.contains a then some a else candidates.head?
  | none => candidates.head?

/-- A comparison that is among the numeric columns, else the first one other than the metric; a
missing comparison stays missing. -/
def repairedComparison (pick metric : Option String) (numeric : List String) : Option String :=
  match pick with
  | none => none
  | some a =>
    if numeric.contains a then some a else (numeric.filter fun other => metric != some other).head?

/-- A pick is set anew when it comes out as another one. -/
def setAnew (before after : Option String) : Option (Option String) :=
  if after = before then none else some after

/-- The picks of a visual that a repair sets anew. -/
structure PickUpdate where
  metric : Option (Option String)
  dimension : Option (Option String)
  comparison : Option (Option String)
  deriving DecidableEq, Repr

/-- No pick is set anew. -/
def PickUpdate.isEmpty (u : PickUpdate) : Bool := u.metric.isNone && u.dimension.isNone && u.comparison.isNone

/-- The picks that have to be set anew for the columns that are there. -/
def pickUpdate (v : Visual) (columns : List ColumnOption) : PickUpdate :=
  let metric := keepOrFirst v.metric (numericAliases columns)
  ⟨setAnew v.metric metric, setAnew v.dimension (keepOrFirst v.dimension (textualAliases columns)),
    setAnew v.comparison (repairedComparison v.comparison metric (numericAliases columns))⟩

/-- A copy of a visual with some picks set anew. -/
def Visual.updated (v : Visual) (u : PickUpdate) : Visual :=
  { v with
    metric := u.metric.getD v.metric
    dimension := u.dimension.getD v.dimension
    comparison := u.comparison.getD v.comparison }

/-- The copy that takes the place of a visual when its picks have to be set anew; none when the visual itself
is handed back. -/
def repairedCopy? (v : Visual) (columns : List ColumnOption) : Option Visual :=
  let u := pickUpdate v columns
  if u.isEmpty then none else some (v.updated u)

/-- Point a visual back at columns that are there. -/
def repairVisual (v : Visual) (columns : List ColumnOption) : Visual := (repairedCopy? v columns).getD v

theorem getD_setAnew (before after : Option String) : (setAnew before after).getD before = after := by
  unfold setAnew
  split
  · rename_i hsame
    exact hsame.symm
  · rfl

theorem isNone_setAnew (before after : Option String) : (setAnew before after).isNone = true ↔ after = before := by
  unfold setAnew
  split
  · rename_i hsame
    exact iff_of_true rfl hsame
  · rename_i hother
    exact iff_of_false Bool.false_ne_true hother

/-- Whether a copy is made or not, the picks are those that are there. -/
theorem repairVisual_eq (v : Visual) (columns : List ColumnOption) :
    repairVisual v columns =
      let metric := keepOrFirst v.metric (numericAliases columns)
      { v with
        metric
        dimension := keepOrFirst v.dimension (textualAliases columns)
        comparison := repairedComparison v.comparison metric (numericAliases columns) } := by
  unfold repairVisual repairedCopy?
  dsimp only
  split
  · rename_i hunchanged
    simp only [pickUpdate, PickUpdate.isEmpty, Bool.and_eq_true, isNone_setAnew] at hunchanged
    obtain ⟨⟨hmetric, hdimension⟩, hcomparison⟩ := hunchanged
    simp only [Option.getD_none, hmetric, hdimension]
    rw [hmetric] at hcomparison
    rw [hcomparison]
  · simp only [Option.getD_some, Visual.updated, pickUpdate, getD_setAnew]

theorem metric_repairVisual (v : Visual) (columns : List ColumnOption) :
    (repairVisual v columns).metric = keepOrFirst v.metric (numericAliases columns) := by
  rw [repairVisual_eq]

theorem dimension_repairVisual (v : Visual) (columns : List ColumnOption) :
    (repairVisual v columns).dimension = keepOrFirst v.dimension (textualAliases columns) := by
  rw [repairVisual_eq]

/-- The comparison is repaired with the metric that is repaired already. -/
theorem comparison_repairVisual (v : Visual) (columns : List ColumnOption) :
    (repairVisual v columns).comparison =
      repairedComparison v.comparison (repairVisual v columns).metric (numericAliases columns) := by
  rw [repairVisual_eq]

end AdhocReport.Query
