import AdhocReport.Failure
import AdhocReport.Check.Moment
set_option autoImplicit false

/-!
# Queries: responses

A query is answered by an immediate result or by the descriptor of a background job.  A response
with columns is a result; else one with a job id is a descriptor.
-/

namespace AdhocReport.Query

/-- The state of a background job. -/
inductive JobStatus where
  | queued
  | running
  | completed
  | failed
  deriving DecidableEq, Repr

/-- The codes of the states. -/
def JobStatus.codes : List (String × JobStatus) :=
  [("queued", .queued), ("running", .running), ("completed", .completed), ("failed", .failed)]

/-- The code of a state. -/
def JobStatus.code : JobStatus → String
  | .queued => "queued"
  | .running => "running"
  | .completed => "completed"
  | .failed => "failed"

/-- The job will not change any more. -/
def JobStatus.isTerminal : JobStatus → Bool
  | .completed => true
  | .failed => true
  | _ => false

/-- What is known of a result beside its rows. -/
structure ResultMeta where
  executedAt : Option Calendar.Moment
  cachedAt : Option Calendar.Moment
  cached : Bool
  hash : Option String
  jobId : Option String
  rowCount : Int
  deriving DecidableEq, Repr

/-- The facts when none are given. -/
def ResultMeta.empty : ResultMeta := ⟨none, none, false, none, none, 0⟩

/-- The members of the facts. -/
def ResultMeta.known : List String := ["executed_at", "cached_at", "cached", "hash", "job_id", "row_count"]

/-- Read the facts of a result. -/
def ResultMeta.reader : Check.Reader ResultMeta :=
  Check.record "ResultMeta" ResultMeta.known fun ms =>
    ResultMeta.mk <$> Check.defaulted ms "executed_at" none (Check.nullable Check.moment)
      <*> Check.defaulted ms "cached_at" none (Check.nullable Check.moment)
      <*> Check.defaulted ms "cached" false Check.truth
      <*> Check.defaulted ms "hash" none (Check.nullable Check.text)
      <*> Check.defaulted ms "job_id" none (Check.nullable Check.text)
      <*> Check.defaulted ms "row_count" 0 Check.integer

/-- A moment, or null when there is none. -/
def momentToJson (m : Option Calendar.Moment) : Json := Json.ofText? (m.map Calendar.Moment.text)

/-- The facts of a result as JSON. -/
def ResultMeta.toJson (m : ResultMeta) : Json :=
  .obj [("executed_at", momentToJson m.executedAt), ("cached_at", momentToJson m.cachedAt),
    ("cached", .bool m.cached), ("hash", Json.ofText? m.hash), ("job_id", Json.ofText? m.jobId),
    ("row_count", .int m.rowCount)]

/-- A row: its values by column. -/
abbrev Row : Type := List (String × Json)

/-- A result. -/
structure ImmediateResult where
  columns : List String
  rows : List Row
  sql : Option String
  info : ResultMeta

/-- Read a result. -/
def ImmediateResult.reader : Check.Reader ImmediateResult :=
  Check.record "ImmediateResult" ["columns", "rows", "sql", "meta"] fun ms =>
    ImmediateResult.mk <$> Check.required ms "columns" (Check.list Check.text)
      <*> Check.required ms "rows" (Check.list Check.object)
      <*> Check.defaulted ms "sql" none (Check.nullable Check.text)
      <*> Check.defaulted ms "meta" ResultMeta.empty ResultMeta.reader

/-- A result as JSON. -/
def ImmediateResult.toJson (r : ImmediateResult) : Json :=
  .obj [("columns", Json.ofTexts r.columns), ("rows", .arr (r.rows.map fun row => (Json.obj row).finite)),
    ("sql", Json.ofText? r.sql), ("meta", r.info.toJson)]

/-- A background job as a client sees it. -/
structure JobDescriptor where
  jobId : String
  hash : Option String
  status : JobStatus
  error : Option String
  deriving DecidableEq, Repr

/-- Read a descriptor. -/
def JobDescriptor.reader : Check.Reader JobDescriptor :=
  Check.record "JobDescriptor" ["job_id", "hash", "status", "error"] fun ms =>
    JobDescriptor.mk <$> Check.required ms "job_id" Check.text
      <*> Check.defaulted ms "hash" none (Check.nullable Check.text)
      <*> Check.defaulted ms "status" .queued (Check.choice JobStatus.codes)
      <*> Check.defaulted ms "error" none (Check.nullable Check.text)

/-- A descriptor as JSON. -/
def JobDescriptor.toJson (d : JobDescriptor) : Json :=
  .obj [("job_id", .str d.jobId), ("hash", Json.ofText? d.hash), ("status", .str d.status.code),
    ("error", Json.ofText? d.error)]

/-- The rows of a preview. -/
structure PreviewResult where
  columns : List String
  rows : List Row
  sql : Option String

/-- Read the rows of a preview. -/
def PreviewResult.reader : Check.Reader PreviewResult :=
  Check.record "PreviewResult" ["columns", "rows", "sql"] fun ms =>
    PreviewResult.mk <$> Check.required ms "columns" (Check.list Check.text)
      <*> Check.required ms "rows" (Check.list Check.object)
      <*> Check.defaulted ms "sql" none (Check.nullable Check.text)

/-- The rows of a preview as JSON. -/
def PreviewResult.toJson (r : PreviewResult) : Json :=
  .obj [("columns", Json.ofTexts r.columns), ("rows", .arr (r.rows.map fun row => (Json.obj row).finite)),
    ("sql", Json.ofText? r.sql)]

/-- The answer to a query. -/
inductive Response where
  | result (r : ImmediateResult)
  | job (d : JobDescriptor)

/-- An answer as JSON. -/
def Response.toJson : Response → Json
  | .result r => r.toJson
  | .job d => d.toJson

/-- The value of a check on a response, or the transport error that says what is malformed. -/
def wellFormed {α : Type} (what title : String) : Check.Checked α → Except ReportError α
  | .valid a => .ok a
  | .invalid is =>
    .error (.transport ("Malformed " ++ what ++ " response: " ++ (Check.Invalid.mk title is).headline) none)
  | .stopped fault => .error (.transport ("Malformed " ++ what ++ " response: " ++ fault.message) none)

/-- Tell a result from a descriptor. -/
def Response.ofJson (j : Json) : Except ReportError Response :=
  match j with
  | .obj ms =>
    if (Json.lookup ms "columns").isSome then
      (wellFormed "execution" "ImmediateResult" (ImmediateResult.reader j)).map .result
    else if (Json.lookup ms "job_id").isSome then
      (wellFormed "execution" "JobDescriptor" (JobDescriptor.reader j)).map .job
    else .error (.transport "Execution service response is neither a result nor a job descriptor" none)
  | _ => .error (.transport "Execution service returned a non-object response" none)

end AdhocReport.Query
