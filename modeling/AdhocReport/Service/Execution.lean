import AdhocReport.Service.Store
import AdhocReport.Query.Execution
import AdhocReport.Settings
set_option autoImplicit false

/-!
# The service: running queries

A query is served from the cache, joined to an active job of the same hash, queued as a new job, or
run at once, in this order.  An operation gives an answer or a failure, and the store it leaves.  Each
operation works in a session of its own, also a run of a job inside a query; a session in which a write has
failed takes no further write.
-/

namespace AdhocReport.Service

open AdhocReport.Query

/-- What a service works on. -/
structure Backend where
  settings : Settings
  registry : Schema.Registry
  tables : List Schema.Table
  content : Sql.Content

/-- How new jobs reach a worker. -/
inductive Dispatch where
  /-- The id is handed to a queue. -/
  | record
  /-- The queue is out of reach, for a reason. -/
  | fail (reason : String)
  /-- The job is run at once, under the settings of a worker. -/
  | inline (worker : Settings)

/-- Why a query was not performed. -/
inductive Setback where
  | failed (f : Failure)
  /-- The record of the result could not be written; the session takes no further write. -/
  | unwritten (f : Failure)

/-- The failure of a setback. -/
def Setback.failure : Setback → Failure
  | .failed f => f
  | .unwritten f => f

/-- An answer or a failure, and the store afterwards. -/
abbrev Outcome (α : Type) : Type := Except Failure α × Store

/-- A moment some seconds later, within the years of the calendar. -/
def momentAfter (now : Calendar.Moment) (seconds : Int) : Except Failure Calendar.Moment :=
  let days := seconds / 86400
  if days < -999999999 ∨ 999999999 < days then .error (.spanTooLong days)
  else
    let later := now.addSeconds seconds
    if 1 ≤ later.date.year ∧ later.date.year ≤ 9999 then .ok later else .error .dateOutOfRange

/-- The record of a result with the rows that it keeps. -/
def resultRecord (t : ResultTable) (rows : List Row) (hash : String) (jobId : Option String)
    (now : Calendar.Moment) : Json :=
  .obj [("columns", Json.ofTexts t.columns), ("rows", .arr (rows.map Json.obj)), ("sql", .str t.sql),
    ("meta", .obj [("executed_at", .str now.text), ("hash", .str hash), ("job_id", Json.ofText? jobId),
      ("row_count", Json.ofNat rows.length)])]

/-- A member that a stored record has to have. -/
def storedMember (ms : Check.Members) (key : String) : Except Failure Json :=
  match Json.lookup ms key with
  | some j => .ok j
  | none => .error (.missingKey key)

/-- A value that counts as missing where facts are stored. -/
def isVoid : Json → Bool
  | .null => true
  | .bool b => !b
  | .int n => n == 0
  | .float x => x == 0.0
  | .str s => s == ""
  | .arr items => items.isEmpty
  | .obj ms => ms.isEmpty

/-- The result that a stored record denotes, with its facts changed by `mark`. -/
def storedResult (record : Json) (mark : ResultMeta → ResultMeta) : Except Failure ImmediateResult :=
  match record with
  | .obj ms => do
    let stored := (Json.lookup ms "meta").getD .null
    let info ← (ResultMeta.reader (if isVoid stored then .obj [] else stored)).orFail "ResultMeta"
    let columns ← storedMember ms "columns"
    let rows ← storedMember ms "rows"
    let sql := (Json.lookup ms "sql").getD .null
    let r ← (ImmediateResult.reader (.obj [("columns", columns), ("rows", rows), ("sql", sql)])).orFail
      "ImmediateResult"
    .ok { r with info := mark info }
  | _ => .error .noMembers

/-- The facts of a result that was served from the cache. -/
def fromCache (moment : Calendar.Moment) (m : ResultMeta) : ResultMeta :=
  { m with cached := true, cachedAt := some moment }

/-- The failure to find a job. -/
def jobNotFound : Failure := .http 404 (.str "Job not found")

namespace Backend

/-- What queries are compiled against. -/
def target (b : Backend) : Target := ⟨b.registry, b.tables, .sqlite, some b.settings.maxRowLimit⟩

/-- A query is run in the background if that is allowed and either forced or called for by the number
of models. -/
def runsAsync (b : Backend) (c : Config) : Bool :=
  c.options.allowAsync && (c.options.forceAsync || b.settings.asyncModelThreshold ≤ c.models.length)

/-- The configuration with its limit within the settings. -/
def capped (b : Backend) (c : Config) : Config :=
  if b.settings.maxRowLimit < c.limit then { c with limit := b.settings.maxRowLimit } else c

/-- The time for which the result of a query may be served. -/
def ttl (b : Backend) (c : Config) : Int :=
  match c.options.cacheTtlSeconds with
  | none => b.settings.cacheTtlSeconds
  | some n => if n == 0 then b.settings.cacheTtlSeconds else n

/-- Run a query and cache the record of its result, which fails if the record cannot be written. -/
def perform (b : Backend) (s : Store) (now : Calendar.Moment) (c : Config) (hash : String)
    (jobId : Option String) : Except Setback (Json × Store) := do
  let t ← (b.target.execute b.content c).mapError .failed
  let expiresAt ← (momentAfter now (b.ttl c)).mapError .failed
  let rows ← t.keptRows.mapError .unwritten
  let record := resultRecord t rows hash jobId now
  .ok (record, s.put ⟨hash, record, c.options.templateId, now, expiresAt⟩)

/-- Run the query that a job holds. -/
def performJob (b : Backend) (s : Store) (now : Calendar.Moment) (j : Job) : Except Setback (Json × Store) := do
  let c ← ((Config.reader j.payload).orFail "QueryConfig").mapError .failed
  b.perform s now c j.hash (some j.id)

/-- Run a job, unless it is finished.  A failure is kept with the job, and an unexpected one is
answered as well.  That a record could not be written is not kept, as this would be a further write in the
same session: the job is left as it was taken up. -/
def runJob (b : Backend) (s : Store) (now : Calendar.Moment) (id : String) : Outcome JobStatus :=
  match s.job? id with
  | none => (.error (.report (.unknownJob id)), s)
  | some j =>
    if j.status.isTerminal then (.ok j.status, s)
    else
      let running := s.changeJob id fun k => k.start now
      match b.performJob running now j with
      | .ok (record, t) => (.ok .completed, t.changeJob id fun k => k.complete now record)
      | .error (.failed f) =>
        (if f.isExpected then .ok .failed else .error f, running.changeJob id fun k => k.fail now f.message)
      | .error (.unwritten f) => (.error (.brokenSession f.message), running)

/-- The text of a failure to hand over a job. -/
def queueFailure (reason : String) : String := "Could not queue job: " ++ reason

/-- The job for a configuration, as it is queued. -/
def newJob (s : Store) (now : Calendar.Moment) (c : Config) : Job :=
  ⟨s.nextId, c.hash, c.toJson, .queued, c.options.templateId, none, none, now, none, none⟩

/-- Queue a new job for a configuration. -/
def queue (b : Backend) (d : Dispatch) (s : Store) (now : Calendar.Moment) (c : Config) :
    JobDescriptor × Store :=
  let j := newJob s now c
  let added := s.addJob j
  let refused := fun (t : Store) (reason : String) =>
    ((j.fail now (queueFailure reason)).descriptor, t.changeJob j.id fun k => k.fail now (queueFailure reason))
  match d with
  | .record => (j.descriptor, added.dispatch j.id)
  | .fail reason => refused (added.dispatch j.id) reason
  | .inline worker =>
    match ({ b with settings := worker }).runJob added now j.id with
    | (.ok _, t) => (j.descriptor, t)
    | (.error f, t) => refused t f.message

/-- Answer a query whose limit is within the settings. -/
def answer (b : Backend) (d : Dispatch) (s : Store) (now : Calendar.Moment) (c : Config) : Outcome Response :=
  match s.fresh? c.hash now with
  | some e => ((storedResult e.result (fromCache e.cachedAt)).map .result, s)
  | none =>
    if b.runsAsync c then
      match s.activeJob? c.hash with
      | some j => (.ok (.job j.descriptor), s)
      | none =>
        let (descriptor, t) := b.queue d s now c
        (.ok (.job descriptor), t)
    else
      match b.perform s now c c.hash none with
      | .ok (record, t) => ((storedResult record id).map .result, t)
      | .error setback => (.error setback.failure, s)

/-- Answer a query.  Stale derived fields are refused before anything else. -/
def runQuery (b : Backend) (d : Dispatch) (s : Store) (now : Calendar.Moment) (c : Config) :
    Outcome Response :=
  match ensureCurrent c.models c.derivedFields with
  | .error e => (.error (.report e), s)
  | .ok () => b.answer d s now (b.capped c)

/-- Run a preview. -/
def runPreview (b : Backend) (r : PreviewRequest) : Except Failure PreviewResult :=
  b.target.runPreview b.content r

end Backend

/-- The result of a job that has one, else its descriptor. -/
def Store.getJob (s : Store) (id : String) : Except Failure Response :=
  match s.job? id with
  | none => .error jobNotFound
  | some j =>
    match j.status, j.result with
    | .completed, some record => (storedResult record fun m => m).map .result
    | _, _ => .ok (.job j.descriptor)

end AdhocReport.Service
