import AdhocReport.DerivedField.Basic
import AdhocReport.Query.Config
import AdhocReport.Query.Response
import AdhocReport.Settings
set_option autoImplicit false

/-!
# The client: the runner

A runner sends a query and polls its job until the job ends.  It owns one slot for the outcome.  Every
submission has a generation number; a new submission or a cancellation raises the number, asks the
submission in flight to stop, and from then on its answers no longer reach the slot, even if it
ignores the request.  All of this is a machine whose steps may come in any order.
-/

namespace AdhocReport.Client

open AdhocReport.Query

/-- How long a runner sleeps between two polls, and how often it polls. -/
structure Rhythm where
  interval : Float
  backoff : Float
  longest : Float
  attempts : Int

/-- The rhythm that the settings ask for. -/
def Rhythm.ofSettings (s : Settings) : Rhythm :=
  ⟨s.pollIntervalSeconds, s.pollBackoff, s.pollMaxIntervalSeconds, s.pollMaxAttempts⟩

/-- The sleep that follows a sleep. -/
def Rhythm.next (r : Rhythm) (interval : Float) : Float :=
  let longer := interval * r.backoff
  if r.longest < longer then r.longest else longer

/-- The state of the slot. -/
inductive RunnerState where
  | idle
  | submitted
  | queued
  | completed
  | failed
  | cancelled
  deriving DecidableEq, Repr

/-- The code of a state. -/
def RunnerState.code : RunnerState → String
  | .idle => "idle"
  | .submitted => "submitted"
  | .queued => "queued"
  | .completed => "completed"
  | .failed => "failed"
  | .cancelled => "cancelled"

/-- What the latest submission has come to. -/
structure Slot where
  state : RunnerState
  job : Option JobDescriptor
  result : Option ImmediateResult
  error : Option ReportError

/-- The slot before the first submission. -/
def Slot.empty : Slot := ⟨.idle, none, none, none⟩

/-- A call of a runner to its surroundings. -/
inductive Call where
  | runQuery (c : Config)
  | getJob (id : String)
  | sleep (seconds : Float)

/-- What a transport answers to a call. -/
inductive Reply where
  | answered (r : Response)
  /-- An error that callers know. -/
  | failed (e : ReportError)
  /-- Any other failure, by its wording. -/
  | broken (message : String)

/-- How a run ended. -/
inductive Ending where
  /-- With a result, or with none because the run was no longer the current one. -/
  | returned (r : Option ImmediateResult)
  | raised (e : ReportError)
  | cancelled

/-- What a run does. -/
inductive Phase where
  | created
  /-- It waits for the answer to its query. -/
  | asking
  /-- It sleeps before a poll, after a number of polls. -/
  | sleeping (job : String) (polls : Nat) (interval : Float)
  /-- It waits for the answer to a poll. -/
  | polling (job : String) (polls : Nat) (interval : Float)
  | ended (e : Ending)

/-- The run has ended. -/
def Phase.isEnded : Phase → Bool
  | .ended _ => true
  | _ => false

/-- What the caller of a submission knows. -/
inductive Caller where
  | waiting
  /-- The submission was superseded or cancelled, has a result, or has failed. -/
  | answered (a : Except ReportError (Option ImmediateResult))
  /-- The caller was cancelled itself. -/
  | cancelled

/-- One submission: its run and its caller. -/
structure Submission where
  generation : Nat
  config : Config
  phase : Phase
  /-- The run was asked to stop. -/
  stopping : Bool
  caller : Caller

/-- A runner with all its submissions, and all the calls that they made. -/
structure Runner where
  rhythm : Rhythm
  generation : Nat
  slot : Slot
  /-- The generation of the run that is asked to stop next. -/
  held : Option Nat
  submissions : List Submission
  calls : List Call

/-- The failure of a job. -/
def jobFailure (job : String) : ReportError := .jobFailed "Query job failed. Please try again." (some job)

/-- The failure of a job that takes too long. -/
def jobTimeout (job : String) (attempts : Int) : ReportError :=
  .jobTimeout ("Query job " ++ job ++ " did not finish after " ++ Decimal.intText attempts ++ " polls") (some job)

namespace Runner

/-- The runner before the first submission. -/
def start (rhythm : Rhythm) : Runner := ⟨rhythm, 0, .empty, none, [], []⟩

/-- The submission of a generation. -/
def submission? (r : Runner) (g : Nat) : Option Submission := r.submissions.find? fun s => s.generation == g

/-- What the run of a generation does. -/
def phase? (r : Runner) (g : Nat) : Option Phase := (r.submission? g).map fun s => s.phase

/-- Change the submission of a generation. -/
def change (r : Runner) (g : Nat) (f : Submission → Submission) : Runner :=
  { r with submissions := r.submissions.map fun s => if s.generation = g then f s else s }

/-- The generation is the one whose answers reach the slot. -/
def isCurrent (r : Runner) (g : Nat) : Bool := g == r.generation

/-- The held run has not ended. -/
def inFlight (r : Runner) : Bool :=
  (r.held.bind r.submission?).any fun s => !s.phase.isEnded

/-- Set the phase of a run, which has then taken notice of any request to stop. -/
def moveTo (r : Runner) (g : Nat) (p : Phase) : Runner :=
  r.change g fun s => { s with phase := p, stopping := false }

/-- Note a call. -/
def call (r : Runner) (c : Call) : Runner := { r with calls := r.calls ++ [c] }

/-- Ask the held run to stop, if it has not ended, and let go of it. -/
def letGo (r : Runner) : Runner :=
  match r.held with
  | none => r
  | some g =>
    { r.change g fun s => if s.phase.isEnded then s else { s with stopping := true } with held := none }

/-- End a run with an error, which reaches the slot if the run is the current one. -/
def fail (r : Runner) (g : Nat) (e : ReportError) : Runner :=
  let ended := r.moveTo g (.ended (.raised e))
  if r.isCurrent g then { ended with slot := { ended.slot with state := .failed, error := some e } } else ended

/-- End a run that is no longer the current one. -/
def discard (r : Runner) (g : Nat) : Runner := r.moveTo g (.ended (.returned none))

/-- End the current run with its result. -/
def complete (r : Runner) (g : Nat) (result : ImmediateResult) : Runner :=
  let ended := r.moveTo g (.ended (.returned (some result)))
  { ended with slot := { ended.slot with state := .completed, result := some result } }

/-- Sleep before the next poll, unless there were enough. -/
def pollAgain (r : Runner) (g : Nat) (job : String) (polls : Nat) (interval : Float) : Runner :=
  if (polls : Int) < r.rhythm.attempts then (r.moveTo g (.sleeping job polls interval)).call (.sleep interval)
  else r.fail g (jobTimeout job r.rhythm.attempts)

/-- Take the answer to the query. -/
def takeAnswer (r : Runner) (g : Nat) (a : Reply) : Runner :=
  match a with
  | .failed e => r.fail g e
  | .broken message => r.fail g (.transport message none)
  | .answered response =>
    if !r.isCurrent g then r.discard g
    else match response with
      | .result result => r.complete g result
      | .job d =>
        let queued := { r with slot := { r.slot with state := .queued, job := some d } }
        if d.status == .failed then queued.fail g (jobFailure d.jobId)
        else queued.pollAgain g d.jobId 0 r.rhythm.interval

/-- Take the answer to a poll. -/
def takePoll (r : Runner) (g : Nat) (job : String) (polls : Nat) (interval : Float) (a : Reply) : Runner :=
  match a with
  | .failed e => r.fail g e
  | .broken message => r.fail g (.transport message none)
  | .answered response =>
    if !r.isCurrent g then r.discard g
    else match response with
      | .result result => r.complete g result
      | .job d =>
        let noted := { r with slot := { r.slot with job := some d } }
        if d.status == .failed then noted.fail g (jobFailure job)
        else noted.pollAgain g job (polls + 1) (r.rhythm.next interval)

/-- Submit a query.  Stale derived fields are refused before anything else. -/
def submit (r : Runner) (c : Config) (fields : List DerivedField) : Except ReportError Runner :=
  (DerivedField.ensureFresh fields c.models).map fun _ =>
    let g := r.generation + 1
    let free := r.letGo
    { free with
      generation := g
      slot := ⟨.submitted, none, none, none⟩
      held := some g
      submissions := free.submissions ++ [⟨g, c, .created, false, .waiting⟩] }

/-- Cancel the current submission. -/
def cancel (r : Runner) : Runner :=
  let free := { r with generation := r.generation + 1 }.letGo
  if free.slot.state == .submitted || free.slot.state == .queued then
    { free with slot := { free.slot with state := .cancelled } }
  else free

/-- Let a run begin. -/
def launch (r : Runner) (g : Nat) : Runner :=
  match r.submission? g with
  | some ⟨_, c, .created, false, _⟩ => (r.moveTo g .asking).call (.runQuery c)
  | _ => r

/-- Hand an answer to a run that waits for one. -/
def reply (r : Runner) (g : Nat) (a : Reply) : Runner :=
  match r.phase? g with
  | some .asking => r.takeAnswer g a
  | some (.polling job polls interval) => r.takePoll g job polls interval a
  | _ => r

/-- End the sleep of a run. -/
def wake (r : Runner) (g : Nat) : Runner :=
  match r.phase? g with
  | some (.sleeping job polls interval) =>
    if r.isCurrent g then (r.moveTo g (.polling job polls interval)).call (.getJob job) else r.discard g
  | _ => r

/-- Let a run that was asked to stop do so. -/
def abort (r : Runner) (g : Nat) : Runner :=
  match r.submission? g with
  | some s => if s.stopping && !s.phase.isEnded then r.moveTo g (.ended .cancelled) else r
  | none => r

/-- What a caller is told when the run has ended: nothing unless the submission is still the current
one. -/
def told (r : Runner) (g : Nat) : Ending → Except ReportError (Option ImmediateResult)
  | .cancelled => .ok none
  | .returned result => .ok (if r.isCurrent g then result else none)
  | .raised e => if r.isCurrent g then .error e else .ok none

/-- Let the caller of a submission take notice of the end of its run. -/
def settle (r : Runner) (g : Nat) : Runner :=
  match r.submission? g with
  | some ⟨_, _, .ended e, _, .waiting⟩ => r.change g fun s => { s with caller := .answered (r.told g e) }
  | _ => r

/-- Cancel the caller of a submission, which asks its run to stop. -/
def abandon (r : Runner) (g : Nat) : Runner :=
  match r.submission? g with
  | some ⟨_, _, p, _, .waiting⟩ =>
    r.change g fun s => { s with caller := .cancelled, stopping := s.stopping || !p.isEnded }
  | _ => r

end Runner

/-- A step of a runner. -/
inductive Event where
  | submit (c : Config) (fields : List DerivedField)
  | cancel
  /-- Cancel, and then wait until the run in flight has ended. -/
  | close
  | launch (g : Nat)
  | reply (g : Nat) (a : Reply)
  | wake (g : Nat)
  | abort (g : Nat)
  | settle (g : Nat)
  | abandon (g : Nat)

/-- The runner after a step; a step that does not fit leaves it as it is. -/
def Runner.step (r : Runner) : Event → Runner
  | .submit c fields =>
    match r.submit c fields with
    | .ok s => s
    | .error _ => r
  | .cancel => r.cancel
  | .close => r.cancel
  | .launch g => r.launch g
  | .reply g a => r.reply g a
  | .wake g => r.wake g
  | .abort g => r.abort g
  | .settle g => r.settle g
  | .abandon g => r.abandon g

end AdhocReport.Client
