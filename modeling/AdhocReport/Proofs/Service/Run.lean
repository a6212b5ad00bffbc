import AdhocReport.Service.Execution
import AdhocReport.Proofs.Calendar.Moment
import AdhocReport.Proofs.Query.Record
import AdhocReport.Proofs.Query.Keeping
set_option autoImplicit false

/-!
# Runs of a service

A service is asked for one thing after another while its clock goes on.  Each operation gives an answer
and leaves a store; a run is a list of operations, each of which may meet a service of its own over the
same store.  What an operation can come to is said once, case by case with what the service has found
out before, and everything about runs is proved from these cases.
-/

namespace AdhocReport.Service

open AdhocReport.Query
open AdhocReport.Outcome (bind_ok bind_eq_ok mapError_eq_ok)

/-- A moment that a clock can show. -/
abbrev Clock : Type := { m : Calendar.Moment // m.Shown }

/-- A configuration whose parts are in range and fit together. -/
abbrev Checked : Type := { c : Config // c.WellFormed }

/-- What a service can be asked for, and the passing of time. -/
inductive Operation where
  | runQuery (d : Dispatch) (c : Checked)
  | runJob (id : String)
  | getJob (id : String)
  | purge
  | advance (clock : Clock)

/-- What an operation answers. -/
inductive Answered where
  | response (r : Except Failure Response)
  | status (r : Except Failure JobStatus)
  | purged (count : Nat)
  | nothing

/-- A store at a moment. -/
structure World where
  store : Store
  clock : Clock

namespace World

/-- The moment that the clock shows. -/
def now (w : World) : Calendar.Moment := w.clock.val

/-- The world before the first operation. -/
def start (clock : Clock) : World := ⟨.empty, clock⟩

/-- The answer of a service to an operation, and the world afterwards. -/
def answer (w : World) (b : Backend) : Operation → Answered × World
  | .runQuery d c =>
    let (r, s) := b.runQuery d w.store w.now c.val
    (.response r, { w with store := s })
  | .runJob id =>
    let (r, s) := b.runJob w.store w.now id
    (.status r, { w with store := s })
  | .getJob id => (.response (w.store.getJob id), w)
  | .purge => (.purged (w.store.expired w.now), { w with store := w.store.purge w.now })
  | .advance clock => (.nothing, { w with clock })

/-- The world after an operation of a service. -/
def step (w : World) (request : Backend × Operation) : World := (w.answer request.1 request.2).2

/-- The world after several operations. -/
def run (w : World) (requests : List (Backend × Operation)) : World := requests.foldl step w

/-- A query takes no time. -/
theorem now_step_runQuery (w : World) (b : Backend) (d : Dispatch) (c : Checked) :
    (w.step (b, .runQuery d c)).now = w.now := rfl

theorem run_append (w : World) (before after : List (Backend × Operation)) :
    w.run (before ++ after) = (w.run before).run after :=
  List.foldl_append

/-- What holds at the start and is kept by every operation of a run holds after the run. -/
theorem run_invariant {P : World → Prop} {w : World} (hbefore : P w) (requests : List (Backend × Operation))
    (hkept : ∀ {w : World}, ∀ request ∈ requests, P w → P (w.step request)) : P (w.run requests) := by
  induction requests generalizing w with
  | nil => exact hbefore
  | cons request rest ih =>
    refine ih (hkept request List.mem_cons_self hbefore) fun later hmember => ?_
    exact hkept later (List.mem_cons_of_mem request hmember)

end World

/-! ## What operations can do -/

namespace Backend

/-- What can come of running a job. -/
inductive JobRun (b : Backend) (s : Store) (now : Calendar.Moment) (id : String) :
    Outcome JobStatus → Prop
  | unknown (hmissing : s.job? id = none) : JobRun b s now id (.error (.report (.unknownJob id)), s)
  | finished {j : Job} (hfound : s.job? id = some j) (hterminal : j.status.isTerminal = true) :
    JobRun b s now id (.ok j.status, s)
  | completed {j : Job} {record : Json} {t : Store} (hfound : s.job? id = some j)
      (hactive : j.isActive = true)
      (hperformed : b.performJob (s.changeJob id fun k => k.start now) now j = .ok (record, t)) :
    JobRun b s now id (.ok .completed, t.changeJob id fun k => k.complete now record)
  | failed {j : Job} {f : Failure} (hfound : s.job? id = some j) (hactive : j.isActive = true)
      (hperformed : b.performJob (s.changeJob id fun k => k.start now) now j = .error (.failed f)) :
    JobRun b s now id (if f.isExpected then .ok .failed else .error f,
      (s.changeJob id fun k => k.start now).changeJob id fun k => k.fail now f.message)
  /-- The result could not be written, and this could not be kept with the job. -/
  | left {j : Job} {f : Failure} (hfound : s.job? id = some j) (hactive : j.isActive = true)
      (hperformed : b.performJob (s.changeJob id fun k => k.start now) now j = .error (.unwritten f)) :
    JobRun b s now id (.error (.brokenSession f.message), s.changeJob id fun k => k.start now)

theorem runJob_jobRun (b : Backend) (s : Store) (now : Calendar.Moment) (id : String) :
    JobRun b s now id (b.runJob s now id) := by
  unfold Backend.runJob
  split
  · rename_i hmissing
    exact .unknown hmissing
  · rename_i j hfound
    split
    · rename_i hterminal
      exact .finished hfound hterminal
    · rename_i hwaiting
      have hactive : j.isActive = true := by simpa [Job.isActive] using hwaiting
      dsimp only
      split
      · rename_i record t hperformed
        exact .completed hfound hactive hperformed
      · rename_i f hperformed
        exact .failed hfound hactive hperformed
      · rename_i f hperformed
        exact .left hfound hactive hperformed

/-- What can come of queueing a job: it waits, it was not handed over, or it was run at once, and then
its run may have failed for a reason that the queue reports. -/
inductive Queued (b : Backend) (d : Dispatch) (s : Store) (now : Calendar.Moment) (c : Config) :
    JobDescriptor × Store → Prop
  | waiting (hmode : d = .record) :
    Queued b d s now c ((newJob s now c).descriptor, (s.addJob (newJob s now c)).dispatch s.nextId)
  | refused {reason : String} (hmode : d = .fail reason) :
    Queued b d s now c (((newJob s now c).fail now (queueFailure reason)).descriptor,
      ((s.addJob (newJob s now c)).dispatch s.nextId).changeJob s.nextId
        fun k => k.fail now (queueFailure reason))
  | run {worker : Settings} {status : JobStatus} {t : Store} (hmode : d = .inline worker)
      (hran : ({ b with settings := worker }).runJob (s.addJob (newJob s now c)) now s.nextId =
        (.ok status, t)) :
    Queued b d s now c ((newJob s now c).descriptor, t)
  | broken {worker : Settings} {f : Failure} {t : Store} (hmode : d = .inline worker)
      (hran : ({ b with settings := worker }).runJob (s.addJob (newJob s now c)) now s.nextId =
        (.error f, t)) :
    Queued b d s now c (((newJob s now c).fail now (queueFailure f.message)).descriptor,
      t.changeJob s.nextId fun k => k.fail now (queueFailure f.message))

theorem queue_queued (b : Backend) (d : Dispatch) (s : Store) (now : Calendar.Moment) (c : Config) :
    Queued b d s now c (b.queue d s now c) := by
  cases d with
  | record => exact .waiting rfl
  | fail reason => exact .refused rfl
  | inline worker =>
    unfold Backend.queue
    dsimp only
    split
    · rename_i hran
      exact .run rfl hran
    · rename_i hran
      exact .broken rfl hran

/-- What can come of a query. -/
inductive QueryRun (b : Backend) (d : Dispatch) (s : Store) (now : Calendar.Moment) (c : Config) :
    Outcome Response → Prop
  | stale {e : ReportError} (hstale : ensureCurrent c.models c.derivedFields = .error e) :
    QueryRun b d s now c (.error (.report e), s)
  | served {e : CacheEntry} (hcurrent : ensureCurrent c.models c.derivedFields = .ok ())
      (hcached : s.fresh? (b.capped c).hash now = some e) :
    QueryRun b d s now c ((storedResult e.result (fromCache e.cachedAt)).map .result, s)
  | joined {j : Job} (hcurrent : ensureCurrent c.models c.derivedFields = .ok ())
      (huncached : s.fresh? (b.capped c).hash now = none) (hasync : b.runsAsync (b.capped c) = true)
      (hactive : s.activeJob? (b.capped c).hash = some j) :
    QueryRun b d s now c (.ok (.job j.descriptor), s)
  | queued {r : JobDescriptor × Store} (hcurrent : ensureCurrent c.models c.derivedFields = .ok ())
      (huncached : s.fresh? (b.capped c).hash now = none) (hasync : b.runsAsync (b.capped c) = true)
      (hfree : s.activeJob? (b.capped c).hash = none) (hresult : Queued b d s now (b.capped c) r) :
    QueryRun b d s now c (.ok (.job r.1), r.2)
  | performed {record : Json} {t : Store} (hcurrent : ensureCurrent c.models c.derivedFields = .ok ())
      (huncached : s.fresh? (b.capped c).hash now = none) (hsync : b.runsAsync (b.capped c) = false)
      (hperformed : b.perform s now (b.capped c) (b.capped c).hash none = .ok (record, t)) :
    QueryRun b d s now c ((storedResult record id).map .result, t)
  | failed {setback : Setback} (hcurrent : ensureCurrent c.models c.derivedFields = .ok ())
      (huncached : s.fresh? (b.capped c).hash now = none) (hsync : b.runsAsync (b.capped c) = false)
      (hperformed : b.perform s now (b.capped c) (b.capped c).hash none = .error setback) :
    QueryRun b d s now c (.error setback.failure, s)

theorem runQuery_queryRun (b : Backend) (d : Dispatch) (s : Store) (now : Calendar.Moment) (c : Config) :
    QueryRun b d s now c (b.runQuery d s now c) := by
  unfold Backend.runQuery
  split
  · rename_i hstale
    exact .stale hstale
  · rename_i hcurrent
    unfold Backend.answer
    split
    · rename_i hcached
      exact .served hcurrent hcached
    · rename_i huncached
      split
      · rename_i hasync
        split
        · rename_i hactive
          exact .joined hcurrent huncached hasync hactive
        · rename_i hfree
          exact .queued hcurrent huncached hasync hfree (queue_queued b d s now (b.capped c))
      · rename_i hsync
        have hsync := Bool.not_eq_true _ ▸ hsync
        split
        · rename_i hperformed
          exact .performed hcurrent huncached hsync hperformed
        · rename_i hperformed
          exact .failed hcurrent huncached hsync hperformed

/-- What a query performs: the rows of its table are recorded, and cached until a later moment. -/
theorem perform_eq_ok {b : Backend} {s t : Store} {now : Calendar.Moment} {c : Config} {hash : String}
    {jobId : Option String} {record : Json} (h : b.perform s now c hash jobId = .ok (record, t)) :
    ∃ table expiresAt rows, b.target.execute b.content c = .ok table ∧ momentAfter now (b.ttl c) = .ok expiresAt ∧
      table.keptRows = .ok rows ∧ record = resultRecord table rows hash jobId now ∧
      t = s.put ⟨hash, record, c.options.templateId, now, expiresAt⟩ := by
  obtain ⟨table, hexecuted, h⟩ := bind_eq_ok.mp h
  obtain ⟨expiresAt, hmoment, h⟩ := bind_eq_ok.mp h
  obtain ⟨rows, hrows, h⟩ := bind_eq_ok.mp h
  cases h
  exact ⟨table, expiresAt, rows, mapError_eq_ok.mp hexecuted, mapError_eq_ok.mp hmoment, mapError_eq_ok.mp hrows, rfl,
    rfl⟩

/-- Performing a query changes nothing but the cache. -/
theorem perform_put {b : Backend} {s t : Store} {now : Calendar.Moment} {c : Config} {hash : String}
    {jobId : Option String} {record : Json} (h : b.perform s now c hash jobId = .ok (record, t)) :
    ∃ e, t = s.put e := by
  obtain ⟨_, _, _, -, -, -, -, rfl⟩ := perform_eq_ok h
  exact ⟨_, rfl⟩

/-- The record of a query cannot be written exactly if there is a span among the values of its table. -/
theorem perform_eq_unwritten_iff {b : Backend} {s : Store} {now : Calendar.Moment} {c : Config} {hash : String}
    {jobId : Option String} {f : Failure} : b.perform s now c hash jobId = .error (.unwritten f) ↔
      f = .spanInRecord ∧ ∃ table expiresAt, b.target.execute b.content c = .ok table ∧
        momentAfter now (b.ttl c) = .ok expiresAt ∧ table.HoldsSpan := by
  rw [perform]
  cases hexecuted : b.target.execute b.content c with
  | error f' => simp [Except.mapError, bind, Except.bind]
  | ok table =>
    cases hmoment : momentAfter now (b.ttl c) with
    | error f' => simp [Except.mapError, bind, Except.bind]
    | ok expiresAt =>
      cases hrows : table.keptRows with
      | error f' =>
        obtain ⟨rfl, hspan⟩ := ResultTable.keptRows_eq_error hrows
        simp [Except.mapError, bind, Except.bind, hrows, hspan, eq_comm]
      | ok rows =>
        have hnone : ¬ table.HoldsSpan := by
          intro hspan
          rw [hspan.keptRows] at hrows
          cases hrows
        simp [Except.mapError, bind, Except.bind, hrows, hnone]

theorem orFail_eq_ok {α : Type} {title : String} {x : Check.Checked α} {a : α} :
    x.orFail title = .ok a ↔ x = .valid a := by
  cases x <;> simp [Check.Checked.orFail]

theorem performJob_eq_ok {b : Backend} {s t : Store} {now : Calendar.Moment} {j : Job} {record : Json}
    (h : b.performJob s now j = .ok (record, t)) :
    ∃ c, Config.reader j.payload = .valid c ∧ b.perform s now c j.hash (some j.id) = .ok (record, t) := by
  obtain ⟨c, hread, h⟩ := bind_eq_ok.mp h
  exact ⟨c, orFail_eq_ok.mp (mapError_eq_ok.mp hread), h⟩

/-- Performing a job changes nothing but the cache. -/
theorem performJob_put {b : Backend} {s t : Store} {now : Calendar.Moment} {j : Job} {record : Json}
    (h : b.performJob s now j = .ok (record, t)) : ∃ e, t = s.put e := by
  obtain ⟨c, -, h⟩ := performJob_eq_ok h
  exact perform_put h

end Backend

end AdhocReport.Service
