import AdhocReport.DerivedField.Analysis
import AdhocReport.Calendar.Moment
set_option autoImplicit false

/-!
# Derived fields: the catalog

The catalog keeps the definitions of derived fields in the order in which they were inserted.  Beside
each expression it stores what the analysis found, so that a saved field is never parsed again.  An
operation that fails leaves the catalog as it was.
-/

namespace AdhocReport.DerivedField

/-- A saved field. -/
structure Definition where
  id : String
  templateId : Option String
  scope : Scope
  name : String
  expression : String
  kind : Kind
  expressionAst : Option Json
  referencedModels : List String
  referencedFields : List (String × List String)
  joinDependencies : List (String × String)
  modelGraphSignature : Option String
  compiledSqlHash : Option String
  metadata : Option Json
  createdBy : String
  createdAt : Calendar.Moment

namespace Definition

/-- The definition with the results of an analysis. -/
def analyzed (d : Definition) (a : Analysis) : Definition :=
  { d with
    expressionAst := some a.tree.toJson
    referencedModels := a.referencedModels
    referencedFields := a.referencedFields
    joinDependencies := a.joinDependencies
    compiledSqlHash := some a.compiledSqlHash }

/-- A definition as it is served. -/
def toJson (d : Definition) : Json :=
  .obj [("id", .str d.id), ("template_id", Json.ofText? d.templateId), ("name", .str d.name),
    ("expression", .str d.expression), ("kind", .str d.kind.code), ("scope", .str d.scope.code),
    ("expression_ast", d.expressionAst.getD .null), ("referenced_models", Json.ofTexts d.referencedModels),
    ("referenced_fields", .obj (d.referencedFields.map fun f => (f.1, Json.ofTexts f.2))),
    ("join_dependencies", pairsToJson d.joinDependencies),
    ("model_graph_signature", Json.ofText? d.modelGraphSignature),
    ("compiled_sql_hash", Json.ofText? d.compiledSqlHash), ("metadata", d.metadata.getD .null),
    ("created_by", .str d.createdBy)]

/-- The tree that a stored record denotes; none if there is no record or it is malformed. -/
def tree? (record : Option Json) : Except Failure (Option Expr) :=
  match record with
  | none => .ok none
  | some (.obj []) => .ok none
  | some j =>
    match Expr.ofJson j with
    | .ok tree => .ok (some tree)
    | .error fault => if fault.isMalformed then .ok none else .error (.record fault)

/-- The derived field that a definition describes, active until it is re-checked. -/
def toField (d : Definition) : Except Failure DerivedField := do
  let tree ← tree? d.expressionAst
  .ok { bare d.id d.name d.expression with
    kind := d.kind
    scope := d.scope
    tree
    referencedModels := Collection.sortedSet d.referencedModels
    referencedFields := d.referencedFields
    joinDependencies := d.joinDependencies
    modelGraphSignature := d.modelGraphSignature
    compiledSqlHash := d.compiledSqlHash
    templateId := d.templateId }

/-- Workspace fields come before or after others by age, then by name. -/
def le (a b : Definition) : Bool :=
  if a.createdAt.micros == b.createdAt.micros then Collection.textLe a.name b.name
  else a.createdAt.micros < b.createdAt.micros

end Definition

/-- The saved fields. -/
structure Catalog where
  definitions : List Definition
  /-- The number of definitions ever inserted. -/
  inserted : Nat

namespace Catalog

/-- The catalog without fields. -/
def empty : Catalog := ⟨[], 0⟩

/-- The definition with an id. -/
def find? (c : Catalog) (id : String) : Option Definition := c.definitions.find? fun d => d.id == id

/-- The failure of a look-up. -/
def notFound : Failure := .http 404 (.str "Derived field not found")

/-- The definition with an id, or the failure to find it. -/
def get (c : Catalog) (id : String) : Except Failure Definition :=
  match c.find? id with
  | some d => .ok d
  | none => .error notFound

/-- The id of the next definition. -/
def nextId (c : Catalog) : String := "field-" ++ Decimal.padded 3 (c.inserted + 1)

/-- Insert a definition at the end. -/
def insert (c : Catalog) (d : Definition) : Catalog := ⟨c.definitions ++ [d], c.inserted + 1⟩

/-- Replace the definition that has the same id. -/
def replace (c : Catalog) (d : Definition) : Catalog :=
  { c with definitions := c.definitions.map fun e => if e.id = d.id then d else e }

/-- The definitions of the workspace and of a template, oldest first; all of them if no template is
named. -/
def forTemplate (c : Catalog) (templateId : Option String) : List Definition :=
  let shown := match templateId with
    | none => c.definitions
    | some "" => c.definitions
    | some t => c.definitions.filter fun d => d.scope == .workspace || d.templateId == some t
  Collection.sortBy Definition.le shown

/-- The definitions with some ids, in the order of the ids. -/
def withIds (c : Catalog) (ids : List String) : List Definition :=
  Collection.sortBy (fun a b => Collection.textLe a.id b.id)
    (c.definitions.filter fun d => ids.contains d.id)

/-- The definition that a draft describes, before its analysis. -/
def drafted (c : Catalog) (d : Draft) (createdBy : String) (now : Calendar.Moment) : Definition :=
  ⟨c.nextId, d.templateId, d.scope, d.name, d.expression, d.kind, none, [], [], [], d.modelGraphSignature,
    none, d.metadata, createdBy, now⟩

/-- Save a new field.  A field of a template has to name it. -/
def create (c : Catalog) (registry : Schema.Registry) (d : Draft) (createdBy : String) (now : Calendar.Moment) :
    Except Failure (Definition × Catalog) := do
  if d.scope == .template && (d.templateId.getD "") == "" then
    .error (.http 400 (.str "Template-scoped derived fields require a template_id"))
  else
    let a ← analyze registry d.expression d.expressionAst
    let definition := (c.drafted d createdBy now).analyzed a
    .ok (definition, c.insert definition)

/-- The definition with the members of a change that need no analysis. -/
def changed (d : Definition) (change : Change) : Except Failure Definition :=
  match change.name, change.kind, change.scope with
  | some none, _, _ => .error .requiredValue
  | _, some none, _ => .error .requiredValue
  | _, _, some none => .error .requiredValue
  | name, kind, scope =>
    .ok { d with
      name := name.join.getD d.name
      kind := kind.join.getD d.kind
      scope := scope.join.getD d.scope
      modelGraphSignature := change.modelGraphSignature.getD d.modelGraphSignature
      metadata := change.metadata.getD d.metadata }

/-- The definition after a change.  A change that names an expression or a tree is analyzed, and the
tree takes precedence. -/
def revised (registry : Schema.Registry) (d : Definition) (change : Change) : Except Failure Definition :=
  if change.expression.isNone && change.expressionAst.isNone then changed d change
  else do
    let expression := change.expression.join.getD d.expression
    let a ← analyze registry expression change.expressionAst.join
    changed ({ d with expression }.analyzed a) change

/-- Change a saved field. -/
def update (c : Catalog) (registry : Schema.Registry) (id : String) (change : Change) :
    Except Failure (Definition × Catalog) := do
  let d ← c.get id
  let e ← revised registry d change
  .ok (e, c.replace e)

/-- Remove a saved field. -/
def delete (c : Catalog) (id : String) : Except Failure Catalog := do
  let _ ← c.get id
  .ok { c with definitions := c.definitions.filter fun d => d.id != id }

/-- The fields with some ids, or those of a template if no ids are given. -/
def load (c : Catalog) (ids : List String) (templateId : Option String) : Except Failure (List DerivedField) :=
  (if ids.isEmpty then c.forTemplate templateId else c.withIds ids).mapM Definition.toField

/-- Re-check the fields that a client holds and, on request, the saved fields that it does not. -/
def recheck (c : Catalog) (r : Recheck) : Except Failure (List Verdict) := do
  let held := r.fields.map Held.toField
  let known := held.map (·.id)
  let ids := r.fieldIds.getD []
  let saved ← if ids.isEmpty && (r.templateId.getD "") == "" then .ok [] else c.load ids r.templateId
  let keys := Join.pairKeys (r.joins.map Join.Condition.models)
  .ok ((held ++ saved.filter fun f => !known.contains f.id).map fun f => verdict f r.models keys)

end Catalog

end AdhocReport.DerivedField
