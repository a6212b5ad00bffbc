import AdhocReport.Failure
import AdhocReport.Expression.Parser
import AdhocReport.Expression.Mention
import AdhocReport.Join.Graph
set_option autoImplicit false

/-!
# Derived fields

A derived field is a named expression that adds an output column.  It is immutable: when its models
leave or enter the selection, a copy with another status takes its place.
-/

namespace AdhocReport

namespace DerivedField

/-- A field computed for each row, or from sums over a group. -/
inductive Kind where
  | row
  | aggregate
  deriving DecidableEq, Repr

/-- A field of one template, or of the whole workspace. -/
inductive Scope where
  | template
  | workspace
  deriving DecidableEq, Repr

/-- Whether the models a field refers to are all selected. -/
inductive Status where
  | active
  | stale
  deriving DecidableEq, Repr

/-- The codes of the kinds. -/
def Kind.codes : List (String × Kind) := [("row", .row), ("aggregate", .aggregate)]

/-- The code of a kind. -/
def Kind.code : Kind → String
  | .row => "row"
  | .aggregate => "aggregate"

/-- The codes of the scopes. -/
def Scope.codes : List (String × Scope) := [("template", .template), ("workspace", .workspace)]

/-- The code of a scope. -/
def Scope.code : Scope → String
  | .template => "template"
  | .workspace => "workspace"

/-- The codes of the statuses. -/
def Status.codes : List (String × Status) := [("active", .active), ("stale", .stale)]

/-- The code of a status. -/
def Status.code : Status → String
  | .active => "active"
  | .stale => "stale"

end DerivedField

/-- A named expression with what is known of its references. -/
structure DerivedField where
  id : String
  name : String
  expression : String
  kind : DerivedField.Kind
  scope : DerivedField.Scope
  tree : Option Expr
  /-- The models it refers to, in code point order. -/
  referencedModels : List String
  referencedFields : List (String × List String)
  joinDependencies : List (String × String)
  status : DerivedField.Status
  visible : Bool
  modelGraphSignature : Option String
  compiledSqlHash : Option String
  templateId : Option String

namespace DerivedField

/-- A field with nothing known of its references. -/
def bare (id name expression : String) : DerivedField :=
  ⟨id, name, expression, .row, .template, none, [], [], [], .active, true, none, none, none⟩

/-- A field whose expression is parsed, its references and join dependencies filled in. -/
def ofExpression (id name expression : String) : Except SyntaxError DerivedField := do
  let tree ← Expr.parse (some expression)
  .ok { bare id name expression with
    tree := some tree
    referencedModels := tree.models
    referencedFields := tree.fieldsByModel
    joinDependencies := Join.inferredPairs tree.models }

/-- The field is stale. -/
def isStale (f : DerivedField) : Bool := f.status == .stale

/-- A list of pairs as JSON. -/
def pairsToJson (pairs : List (String × String)) : Json :=
  .arr (pairs.map fun p => Json.ofTexts [p.1, p.2])

/-- Fields by model as JSON, both in code point order. -/
def fieldsToJson (fields : List (String × List String)) : Json :=
  .obj ((Collection.sortBy (fun a b => Collection.textLe a.1 b.1) fields).map fun f =>
    (f.1, Json.ofTexts (Collection.sortedSet f.2)))

/-- A field as JSON. -/
def toJson (f : DerivedField) : Json :=
  .obj [("id", .str f.id), ("name", .str f.name), ("expression", .str f.expression),
    ("kind", .str f.kind.code), ("scope", .str f.scope.code),
    ("expression_ast", (f.tree.map Expr.toJson).getD .null),
    ("referenced_models", Json.ofTexts f.referencedModels),
    ("referenced_fields", fieldsToJson f.referencedFields),
    ("join_dependencies", pairsToJson f.joinDependencies),
    ("status", .str f.status.code), ("visible", .bool f.visible),
    ("model_graph_signature", Json.ofText? f.modelGraphSignature),
    ("compiled_sql_hash", Json.ofText? f.compiledSqlHash), ("template_id", Json.ofText? f.templateId)]

/-- The models a field depends on: those stored, else those its expression refers to, else those
that a scan of an expression that does not parse mentions. -/
def effectiveModels (f : DerivedField) : List String :=
  if f.referencedModels.isEmpty then
    match Expr.parse (some f.expression) with
    | .ok tree => tree.models
    | .error _ => Expr.mentionedModels f.expression
  else f.referencedModels

/-- The status that fits a selection: stale if a model the field depends on is not selected. -/
def expectedStatus (f : DerivedField) (selected : List String) : Status :=
  if f.effectiveModels.all selected.contains then .active else .stale

/-- The field with the status that fits a selection. -/
def reconciled (f : DerivedField) (selected : List String) : DerivedField :=
  if f.expectedStatus selected = f.status then f else { f with status := f.expectedStatus selected }

/-- Give every field the status that fits a selection. -/
def reconcile (fields : List DerivedField) (selected : List String) : List DerivedField :=
  fields.map (·.reconciled selected)

/-- The status had to be changed to fit a selection. -/
def changes (f : DerivedField) (selected : List String) : Bool := f.expectedStatus selected != f.status

/-- The visible fields that do not fit a selection. -/
def staleFields (fields : List DerivedField) (selected : List String) : List DerivedField :=
  (reconcile fields selected).filter fun f => f.visible && f.isStale

/-- Refuse a selection that some visible field does not fit. -/
def ensureFresh (fields : List DerivedField) (selected : List String) : Except ReportError Unit :=
  let stale := staleFields fields selected
  if stale.isEmpty then .ok () else .error (.stale (stale.map (·.id)))

theorem isStale_reconciled (f : DerivedField) (selected : List String) :
    (f.reconciled selected).isStale = true ↔ ∃ m ∈ f.effectiveModels, m ∉ selected := by
  have hexpected : (f.reconciled selected).status = f.expectedStatus selected := by
    unfold reconciled
    split
    · rename_i hsame
      exact hsame.symm
    · rfl
  unfold isStale
  rw [hexpected, expectedStatus]
  split
  · rename_i hall
    constructor
    · intro h
      cases h
    · rintro ⟨m, hmember, hmissing⟩
      exact absurd (by simpa using List.all_eq_true.mp hall m hmember) hmissing
  · rename_i hsome
    simpa using hsome

theorem visible_reconciled (f : DerivedField) (selected : List String) :
    (f.reconciled selected).visible = f.visible := by
  unfold reconciled
  split <;> rfl

/-- A selection is refused when a visible field depends on a model outside it. -/
theorem staleFields_ne_nil_iff {fields : List DerivedField} {selected : List String} :
    staleFields fields selected ≠ [] ↔
      ∃ f ∈ fields, f.visible = true ∧ ∃ m ∈ f.effectiveModels, m ∉ selected := by
  rw [staleFields, Ne, List.filter_eq_nil_iff]
  simp [reconcile, isStale_reconciled, visible_reconciled]

end DerivedField

end AdhocReport
