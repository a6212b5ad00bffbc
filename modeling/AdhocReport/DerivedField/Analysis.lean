import AdhocReport.DerivedField.Request
import AdhocReport.Schema.Registry
import AdhocReport.Query.Config
set_option autoImplicit false

/-!
# Derived fields: analysis

An expression is analyzed before it is saved: it is parsed, or the tree that the client supplies is
accepted in its place, and each reference is looked up in the registry.  What is stored beside the
expression is a function of the tree alone.
-/

namespace AdhocReport.DerivedField

open AdhocReport.Schema

/-- What is stored beside an expression. -/
structure Analysis where
  tree : Expr
  referencedModels : List String
  referencedFields : List (String × List String)
  joinDependencies : List (String × String)
  compiledSqlHash : String

/-- The analysis of a tree. -/
def Analysis.ofTree (tree : Expr) : Analysis :=
  ⟨tree, tree.models, tree.fieldsByModel, Join.inferredPairs tree.models, Query.payloadHash tree.toJson⟩

/-- An analysis as JSON. -/
def Analysis.toJson (a : Analysis) : Json :=
  .obj [("expression_ast", a.tree.toJson), ("referenced_models", Json.ofTexts a.referencedModels),
    ("referenced_fields", .obj (a.referencedFields.map fun f => (f.1, Json.ofTexts f.2))),
    ("join_dependencies", pairsToJson a.joinDependencies), ("compiled_sql_hash", .str a.compiledSqlHash)]

/-- The models of a tree that the registry does not know. -/
def missingModels (registry : Registry) (tree : Expr) : List String :=
  tree.models.filter fun m => !registry.hasModel m

/-- The fields of known models that the registry does not know. -/
def missingFields (registry : Registry) (tree : Expr) : List FieldRef :=
  (tree.fieldsByModel.filter fun f => registry.hasModel f.1).flatMap fun f =>
    (f.2.filter fun id => (registry.field? f.1 id).isNone).map fun id => ⟨f.1, id⟩

/-- A supplied tree with the references and the join dependencies that follow from it. -/
structure Normalized where
  tree : Expr
  referencedModels : List String
  referencedFields : List (String × List String)
  joinDependencies : List (String × String)

/-- Accept a supplied tree; none when its record is malformed. -/
def normalize (j : Json) : Except RecordFault (Option Normalized) :=
  match Expr.ofJson j with
  | .ok tree => .ok (some ⟨tree, tree.models, tree.fieldsByModel, Join.inferredPairs tree.models⟩)
  | .error fault => if fault.isMalformed then .ok none else .error fault

/-- The tree of an expression, or the one supplied in its place. -/
def treeOf (expression : String) (supplied : Option Json) : Except Failure Expr :=
  match supplied with
  | some j =>
    match Expr.ofJson j with
    | .ok tree => .ok tree
    | .error fault =>
      if fault.isMalformed then .error (.http 400 (.str "Derived field expression AST is invalid"))
      else .error (.record fault)
  | none =>
    match Expr.parse (some expression) with
    | .ok tree => .ok tree
    | .error e => .error (.report (.syntaxError e))

/-- Analyze an expression against the registry. -/
def analyze (registry : Registry) (expression : String) (supplied : Option Json) : Except Failure Analysis := do
  let tree ← treeOf expression supplied
  let models := missingModels registry tree
  let fields := missingFields registry tree
  if models.isEmpty && fields.isEmpty then .ok (.ofTree tree)
  else .error (.http 400 (.obj [("message", .str "Derived field references unknown models or fields."),
    ("missing_models", Json.ofTexts models), ("missing_fields", Json.ofTexts (fields.map FieldRef.path))]))

end AdhocReport.DerivedField
