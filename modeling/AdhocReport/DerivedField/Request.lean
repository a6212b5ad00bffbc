import AdhocReport.DerivedField.Basic
import AdhocReport.Join.Condition
set_option autoImplicit false

/-!
# Derived fields: requests

What clients send to save, change and re-check derived fields.
-/

namespace AdhocReport.DerivedField

/-- A text that is not blank, trimmed. -/
def solidText : Check.Reader String := fun j =>
  (Check.text j).andThen fun s =>
    if Text.isBlankText s then .fail (.rejected "Value cannot be empty") else .valid (Text.trim s)

/-- An object, kept as a JSON value. -/
def objectValue : Check.Reader Json := fun j => (Check.object j).map fun _ => j

/-- A new definition. -/
structure Draft where
  name : String
  expression : String
  kind : Kind
  scope : Scope
  templateId : Option String
  expressionAst : Option Json
  modelGraphSignature : Option String
  metadata : Option Json

/-- The members of a new definition. -/
def Draft.known : List String :=
  ["name", "expression", "kind", "scope", "template_id", "expression_ast", "model_graph_signature", "metadata"]

/-- Read a new definition. -/
def Draft.reader (title : String) : Check.Reader Draft :=
  Check.record title Draft.known fun ms =>
    Draft.mk <$> Check.required ms "name" solidText
      <*> Check.required ms "expression" solidText
      <*> Check.defaulted ms "kind" .row (Check.choice Kind.codes)
      <*> Check.defaulted ms "scope" .template (Check.choice Scope.codes)
      <*> Check.defaulted ms "template_id" none (Check.nullable Check.text)
      <*> Check.defaulted ms "expression_ast" none (Check.nullable objectValue)
      <*> Check.defaulted ms "model_graph_signature" none (Check.nullable Check.text)
      <*> Check.defaulted ms "metadata" none (Check.nullable objectValue)

/-- A new definition as JSON. -/
def Draft.toJson (d : Draft) : Json :=
  .obj [("name", .str d.name), ("expression", .str d.expression), ("kind", .str d.kind.code),
    ("scope", .str d.scope.code), ("template_id", Json.ofText? d.templateId),
    ("expression_ast", (d.expressionAst.getD .null).finite),
    ("model_graph_signature", Json.ofText? d.modelGraphSignature), ("metadata", (d.metadata.getD .null).finite)]

/-- A change of a definition.  An outer `none` is a member that was not given, an inner one a member
that was given as null. -/
structure Change where
  name : Option (Option String)
  expression : Option (Option String)
  kind : Option (Option Kind)
  scope : Option (Option Scope)
  expressionAst : Option (Option Json)
  modelGraphSignature : Option (Option String)
  metadata : Option (Option Json)

/-- The members of a change. -/
def Change.known : List String :=
  ["name", "expression", "kind", "scope", "expression_ast", "model_graph_signature", "metadata"]

/-- A member that may be missing or null. -/
def given {α : Type} (ms : Check.Members) (key : String) (r : Check.Reader α) :
    Check.Checked (Option (Option α)) :=
  Check.defaulted ms key none fun j => (Check.nullable r j).map some

/-- Read a change. -/
def Change.reader : Check.Reader Change :=
  Check.record "DerivedFieldUpdate" Change.known fun ms =>
    Change.mk <$> given ms "name" solidText
      <*> given ms "expression" solidText
      <*> given ms "kind" (Check.choice Kind.codes)
      <*> given ms "scope" (Check.choice Scope.codes)
      <*> given ms "expression_ast" objectValue
      <*> given ms "model_graph_signature" Check.text
      <*> given ms "metadata" objectValue

/-- A change as JSON, missing members as null. -/
def Change.toJson (c : Change) : Json :=
  .obj [("name", Json.ofText? c.name.join), ("expression", Json.ofText? c.expression.join),
    ("kind", Json.ofText? (c.kind.join.map Kind.code)), ("scope", Json.ofText? (c.scope.join.map Scope.code)),
    ("expression_ast", (c.expressionAst.join.getD .null).finite),
    ("model_graph_signature", Json.ofText? c.modelGraphSignature.join),
    ("metadata", (c.metadata.join.getD .null).finite)]

/-- A field as a client holds it. -/
structure Held where
  id : String
  name : String
  expression : String
  kind : Kind
  referencedModels : List String
  joinDependencies : List (String × String)
  status : Status
  visible : Bool

/-- The members of a held field. -/
def Held.known : List String :=
  ["id", "name", "expression", "kind", "referenced_models", "join_dependencies", "status", "visible"]

/-- Read a held field. -/
def Held.reader : Check.Reader Held :=
  Check.record "ReconcileFieldInput" Held.known fun ms =>
    Held.mk <$> Check.required ms "id" Check.text
      <*> Check.defaulted ms "name" "" Check.text
      <*> Check.required ms "expression" Check.text
      <*> Check.defaulted ms "kind" .row (Check.choice Kind.codes)
      <*> Check.defaulted ms "referenced_models" [] (Check.list Check.text)
      <*> Check.defaulted ms "join_dependencies" [] (Check.list (Check.pair Check.text))
      <*> Check.defaulted ms "status" .active (Check.choice Status.codes)
      <*> Check.defaulted ms "visible" true Check.truth

/-- A held field as JSON. -/
def Held.toJson (h : Held) : Json :=
  .obj [("id", .str h.id), ("name", .str h.name), ("expression", .str h.expression),
    ("kind", .str h.kind.code), ("referenced_models", Json.ofTexts h.referencedModels),
    ("join_dependencies", pairsToJson h.joinDependencies), ("status", .str h.status.code),
    ("visible", .bool h.visible)]

/-- The field that a client holds; without a name it goes by its id. -/
def Held.toField (h : Held) : DerivedField :=
  { bare h.id (if h.name == "" then h.id else h.name) h.expression with
    kind := h.kind
    referencedModels := Collection.sortedSet h.referencedModels
    joinDependencies := h.joinDependencies
    status := h.status
    visible := h.visible }

/-- A request to re-check held and saved fields against a selection. -/
structure Recheck where
  models : List String
  joins : List Join.Condition
  fieldIds : Option (List String)
  templateId : Option String
  fields : List Held

/-- Read a request to re-check fields. -/
def Recheck.reader : Check.Reader Recheck :=
  Check.record "ReconcileRequest" ["models", "joins", "field_ids", "template_id", "fields"] fun ms =>
    Recheck.mk <$> Check.required ms "models" (Check.list Check.text)
      <*> Check.defaulted ms "joins" [] (Check.list Join.Condition.reader)
      <*> Check.defaulted ms "field_ids" none (Check.nullable (Check.list Check.text))
      <*> Check.defaulted ms "template_id" none (Check.nullable Check.text)
      <*> Check.defaulted ms "fields" [] (Check.list Held.reader)

/-- A request to re-check fields as JSON. -/
def Recheck.toJson (r : Recheck) : Json :=
  .obj [("models", Json.ofTexts r.models), ("joins", .arr (r.joins.map Join.Condition.toJson)),
    ("field_ids", (r.fieldIds.map Json.ofTexts).getD .null), ("template_id", Json.ofText? r.templateId),
    ("fields", .arr (r.fields.map Held.toJson))]

/-- The outcome of a re-check for one field. -/
structure Verdict where
  id : String
  status : Status
  changed : Bool
  referencedModels : List String
  coverage : List Join.Coverage

/-- A verdict as JSON. -/
def Verdict.toJson (v : Verdict) : Json :=
  .obj [("id", .str v.id), ("status", .str v.status.code), ("changed", .bool v.changed),
    ("referenced_models", Json.ofTexts v.referencedModels),
    ("coverage", .arr (v.coverage.map Join.Coverage.toJson))]

/-- Re-check one field: its status for the selection and the coverage of the pairs it needs. -/
def verdict (f : DerivedField) (selected : List String) (keys : List String) : Verdict :=
  let after := f.reconciled selected
  ⟨after.id, after.status, f.changes selected, after.effectiveModels,
    Join.coverage after.joinDependencies after.effectiveModels keys⟩

end AdhocReport.DerivedField
