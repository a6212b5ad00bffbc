import AdhocReport.Service.Execution
import AdhocReport.Service.Request
import AdhocReport.DerivedField.Catalog
import AdhocReport.Query.Assembly
import AdhocReport.Json.Reader
set_option autoImplicit false

/-!
# The service: its endpoints

A system is a service with its store and its catalog at a moment.  Every endpoint reads the body it
needs, and answers with a status and a JSON value or fails, and only the endpoints that write change
the system.
-/

namespace AdhocReport.Service

open AdhocReport.Query

/-- A service with what it keeps. -/
structure System where
  backend : Backend
  mode : Dispatch
  now : Calendar.Moment
  store : Store
  catalog : DerivedField.Catalog

/-- A system that keeps nothing yet. -/
def System.start (backend : Backend) (mode : Dispatch) (now : Calendar.Moment) : System :=
  ⟨backend, mode, now, .empty, .empty⟩

/-- The system some seconds later. -/
def System.later (s : System) (seconds : Int) : System := { s with now := s.now.addSeconds seconds }

/-- What clients can ask for. -/
inductive Endpoint where
  | health
  /-- The pages that document the service. -/
  | document
  | models
  | preview
  | query
  | job (id : String)
  | listFields
  | createField
  | recheckFields
  | getField (id : String)
  | updateField (id : String)
  | deleteField (id : String)
  | analyzeJoins
  | compileFilters
  | buildConfig
  deriving DecidableEq, Repr

/-- Why a request has no answer. -/
inductive Trouble where
  /-- The body of the request is not as it should be. -/
  | badRequest (issues : List Check.Issue)
  | failure (f : Failure)

/-- A status with a JSON value, null when there is no body. -/
structure Answer where
  status : Nat
  body : Json

/-- An issue with a part of a body. -/
def bodyIssue (i : Check.Issue) : Check.Issue :=
  let kind := match i.kind with
    | .recordType _ => .attributesType
    | k => k
  ⟨.key "body" :: i.path, kind⟩

/-- Read the body of a request. -/
def readBody {α : Type} (r : Check.Reader α) (body : String) : Except Trouble α :=
  if body == "" then .error (.badRequest [bodyIssue ⟨[], .missing⟩])
  else match Json.read? body with
    | none => .error (.badRequest [bodyIssue ⟨[], .notJson⟩])
    | some j =>
      match r j with
      | .valid a => .ok a
      | .invalid is => .error (.badRequest (is.map bodyIssue))
      | .stopped fault => .error (.failure (.record fault))

/-- The dialect of the warehouse that an address names. -/
def dialectOfUrl (url : String) : String :=
  let scheme := String.ofList ((url.toList.takeWhile (· != ':')).takeWhile (· != '+'))
  if scheme == "postgres" then "postgresql" else scheme

/-- The answer to a request for predicate texts. -/
def FilterCheck.answer (r : FilterCheck) (registry : Schema.Registry) (settings : Settings) : Json :=
  let asked := r.dialect.getD ""
  let dialect := if asked == "" then dialectOfUrl settings.warehouseUrl else asked
  let c := Filter.compile r.filters (r.models.map fun m => (m, m)) registry
  .obj [("clauses", Json.ofTexts (c.clauses (dialect == "postgresql"))), ("errors", Json.ofTexts c.errors)]

namespace System

/-- An answer that leaves the system as it is. -/
def answered (s : System) (a : Except Failure Json) : Except Trouble Answer × System :=
  ((a.map (Answer.mk 200)).mapError .failure, s)

/-- An answer after a change of the catalog. -/
def catalogued (s : System) (status : Nat) (a : Except Trouble (Json × DerivedField.Catalog)) :
    Except Trouble Answer × System :=
  match a with
  | .ok (body, catalog) => (.ok ⟨status, body⟩, { s with catalog })
  | .error t => (.error t, s)

/-- Read the body, then go on with it. -/
def reading {α : Type} (s : System) (r : Check.Reader α) (body : String)
    (f : α → Except Trouble Answer × System) : Except Trouble Answer × System :=
  match readBody r body with
  | .ok a => f a
  | .error t => (.error t, s)

/-- The configuration for a selection, with its columns and warnings. -/
def configFor (s : System) (selection : Selection) : Except Failure Json := do
  let registry := s.backend.registry
  let template := selection.templateId
  let fields ← if selection.derivedFieldIds.isEmpty && (template.getD "") == "" then .ok []
    else s.catalog.load selection.derivedFieldIds template
  let a ← assemble selection fields registry s.backend.settings
  .ok (.obj [("config", a.config.toJson), ("visual", a.visual.toJson),
    ("columns", .arr ((availableColumns selection registry).map ColumnOption.toJson)),
    ("warnings", Json.ofTexts a.warnings)])

/-- Answer a request at an endpoint. -/
def endpoint (s : System) (e : Endpoint) (template : Option String) (body : String) :
    Except Trouble Answer × System :=
  let registry := s.backend.registry
  match e with
  | .health => s.answered (.ok (.obj [("status", .str "ok")]))
  | .document => s.answered (.ok .null)
  | .models => s.answered (.ok registry.toJson)
  | .preview => s.reading PreviewRequest.reader body fun r =>
      s.answered ((s.backend.runPreview r).map PreviewResult.toJson)
  | .query => s.reading Config.reader body fun c =>
      let (a, store) := s.backend.runQuery s.mode s.store s.now c
      { s with store }.answered (a.map Response.toJson)
  | .job id => s.answered ((s.store.getJob id).map Response.toJson)
  | .listFields => s.answered (.ok (.arr ((s.catalog.forTemplate template).map DerivedField.Definition.toJson)))
  | .createField => s.reading (DerivedField.Draft.reader "DerivedFieldCreate") body fun d =>
      s.catalogued 201 (((s.catalog.create registry d "system" s.now).map fun p => (p.1.toJson, p.2)).mapError .failure)
  | .recheckFields => s.reading DerivedField.Recheck.reader body fun r =>
      s.answered ((s.catalog.recheck r).map fun vs => .arr (vs.map DerivedField.Verdict.toJson))
  | .getField id => s.answered ((s.catalog.get id).map DerivedField.Definition.toJson)
  | .updateField id => s.reading DerivedField.Change.reader body fun change =>
      s.catalogued 200 (((s.catalog.update registry id change).map fun p => (p.1.toJson, p.2)).mapError .failure)
  | .deleteField id => s.catalogued 204 (((s.catalog.delete id).map fun c => (.null, c)).mapError .failure)
  | .analyzeJoins => s.reading JoinAnalysis.reader body fun r => s.answered (.ok r.answer)
  | .compileFilters => s.reading FilterCheck.reader body fun r =>
      s.answered (.ok (r.answer registry s.backend.settings))
  | .buildConfig => s.reading Selection.reader body fun selection => s.answered (s.configFor selection)

end System

end AdhocReport.Service
