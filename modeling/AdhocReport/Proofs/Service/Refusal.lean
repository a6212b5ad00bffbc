import AdhocReport.Proofs.Service.Answers
set_option autoImplicit false

/-!
# Queries that fail

A query that is answered with a failure has written nothing, wherever it failed: what is performed is
recorded as the last step, and its record can be read back.  A queue that refuses a job is no failure of
the query.  The query is answered with its new job, which has failed, and a job that has failed stands in
the way of no later query.
-/

namespace AdhocReport.Service

open AdhocReport.Query

namespace Backend

open Store

variable {b : Backend} {d : Dispatch} {s : Store} {now : Calendar.Moment} {c : Config}

/-! ## Failures -/

/-- A query that is answered with a failure leaves the store as it was. -/
theorem runQuery_of_error (hshown : now.Shown) {f : Failure} (hfailed : (b.runQuery d s now c).1 = .error f) :
    (b.runQuery d s now c).2 = s := by
  have hrun := runQuery_queryRun b d s now c
  generalize b.runQuery d s now c = result at hrun hfailed
  cases hrun with
  | stale hstale => rfl
  | served hcurrent hcached => rfl
  | joined hcurrent huncached hasync hactive => rfl
  | queued hcurrent huncached hasync hfree hqueued => cases hfailed
  | performed hcurrent huncached hsync hperformed =>
    obtain ⟨table, expiresAt, rows, -, -, -, rfl, -⟩ := perform_eq_ok hperformed
    rw [storedResult_resultRecord table rows _ none hshown id] at hfailed
    cases hfailed
  | failed hcurrent huncached hsync hperformed => rfl

/-- A query with stale derived fields is answered without a look at the store. -/
theorem runQuery_of_stale (hstale : staleIds c.models c.derivedFields ≠ []) :
    b.runQuery d s now c = (.error (.report (.stale (staleIds c.models c.derivedFields))), s) := by
  have hrefused : ensureCurrent c.models c.derivedFields =
      .error (.stale (staleIds c.models c.derivedFields)) := by
    rw [ensureCurrent]
    exact if_neg (by simpa using hstale)
  rw [runQuery, hrefused]

/-! ## Queues that refuse a job -/

/-- A query hands a new job to the queue: its derived fields fit, no result of it may be served, it is to
be run in the background, and no job of its hash is active. -/
structure Queues (b : Backend) (s : Store) (now : Calendar.Moment) (c : Config) : Prop where
  current : ensureCurrent c.models c.derivedFields = .ok ()
  uncached : s.fresh? (b.capped c).hash now = none
  async : b.runsAsync c = true
  free : s.activeJob? (b.capped c).hash = none

/-- The reason for which a queue refuses the new job of a configuration, if it does.  A queue that runs jobs
at once refuses those whose run fails unexpectedly. -/
def refusal? (b : Backend) (d : Dispatch) (s : Store) (now : Calendar.Moment) (c : Config) : Option String :=
  match d with
  | .record => none
  | .fail reason => some reason
  | .inline worker =>
    match (({ b with settings := worker }).runJob (s.addJob (newJob s now c)) now s.nextId).1 with
    | .ok _ => none
    | .error f => some f.message

theorem runQuery_of_queues (hqueues : b.Queues s now c) (d : Dispatch) :
    b.runQuery d s now c =
      (.ok (.job (b.queue d s now (b.capped c)).1), (b.queue d s now (b.capped c)).2) := by
  have hasync : b.runsAsync (b.capped c) = true := (b.runsAsync_capped c).trans hqueues.async
  simp only [runQuery, hqueues.current, answer, hqueues.uncached, hasync, if_true, hqueues.free]

/-- Changing the job that was added changes no other job. -/
theorem jobs_changeJob_newJob (hfresh : ∀ j ∈ s.jobs, j.id ≠ s.nextId) (now : Calendar.Moment) (c : Config)
    (f : Job → Job) :
    ((s.addJob (newJob s now c)).changeJob s.nextId f).jobs = s.jobs ++ [f (newJob s now c)] := by
  have hothers : s.jobs.map (fun j => if j.id = s.nextId then f j else j) = s.jobs := by
    have hsame : ∀ j ∈ s.jobs, (if j.id = s.nextId then f j else j) = j :=
      fun j hmember => if_neg (hfresh j hmember)
    rw [List.map_congr_left hsame, List.map_id']
  have hnew : (newJob s now c).id = s.nextId := rfl
  rw [changeJob, addJob, List.map_append, hothers, List.map_singleton, if_pos hnew]

/-- Running the job that was added: if it is answered with a failure, the job has failed with it or was left as it
was taken up, and nothing else has changed. -/
theorem runJob_newJob_of_error (hfresh : ∀ j ∈ s.jobs, j.id ≠ s.nextId) {f : Failure} {t : Store}
    (hran : b.runJob (s.addJob (newJob s now c)) now s.nextId = (.error f, t)) :
    (t = (s.addJob (newJob s now c)).changeJob s.nextId fun k => (k.start now).fail now f.message) ∨
      t = (s.addJob (newJob s now c)).changeJob s.nextId fun k => k.start now := by
  have hfound := job?_newJob hfresh now c
  have hrun := runJob_jobRun b (s.addJob (newJob s now c)) now s.nextId
  rw [hran] at hrun
  generalize hanswered : (Except.error f, t) = result at hrun
  cases hrun with
  | unknown hmissing =>
    rw [hfound] at hmissing
    cases hmissing
  | finished => cases hanswered
  | completed => cases hanswered
  | failed hfound' hactive hperformed =>
    obtain ⟨hsame, rfl⟩ := Prod.mk.inj hanswered
    split at hsame
    · cases hsame
    · cases hsame
      exact .inl (@changeJob_changeJob _ s.nextId (fun k => k.start now) (fun _ => rfl) _)
  | left hfound' hactive hperformed =>
    cases hanswered
    exact .inr rfl

/-- A query whose job is refused adds this job, which has failed for the reason of the queue. -/
theorem queue_of_refusal (hfresh : ∀ j ∈ s.jobs, j.id ≠ s.nextId) {reason : String}
    (hrefused : b.refusal? d s now c = some reason) :
    ∃ j, j.id = s.nextId ∧ j.hash = c.hash ∧ j.payload = c.toJson ∧ j.status = .failed ∧
      j.error = some (queueFailure reason) ∧ (b.queue d s now c).1 = j.descriptor ∧
      (b.queue d s now c).2.jobs = s.jobs ++ [j] ∧ (b.queue d s now c).2.entries = s.entries := by
  have hresult := queue_queued b d s now c
  generalize b.queue d s now c = r at hresult
  cases hresult with
  | waiting hmode =>
    rw [hmode] at hrefused
    cases hrefused
  | @refused reason' hmode =>
    rw [hmode] at hrefused
    cases hrefused
    exact ⟨_, rfl, rfl, rfl, rfl, rfl, rfl, jobs_changeJob_newJob hfresh now c _, rfl⟩
  | run hmode hran =>
    rw [hmode, refusal?, hran] at hrefused
    cases hrefused
  | @broken worker f t hmode hran =>
    rw [hmode, refusal?, hran] at hrefused
    cases hrefused
    rcases runJob_newJob_of_error hfresh hran with rfl | rfl
    · rw [changeJob_changeJob]
      · exact ⟨((((newJob s now c).start now).fail now f.message).fail now (queueFailure f.message)),
          rfl, rfl, rfl, rfl, rfl, rfl, jobs_changeJob_newJob hfresh now c _, rfl⟩
      · exact fun _ => rfl
    · rw [changeJob_changeJob]
      · exact ⟨(((newJob s now c).start now).fail now (queueFailure f.message)),
          rfl, rfl, rfl, rfl, rfl, rfl, jobs_changeJob_newJob hfresh now c _, rfl⟩
      · exact fun _ => rfl

/-- After a refusal a query of the same configuration hands a new job to the queue again, unless a result of
it may be served. -/
theorem queues_of_refusal (hqueues : b.Queues s now c) {j : Job} {t : Store} (hjobs : t.jobs = s.jobs ++ [j])
    (hfailed : j.status = .failed) {later : Calendar.Moment}
    (huncached : t.fresh? (b.capped c).hash later = none) : b.Queues t later c := by
  refine ⟨hqueues.current, huncached, hqueues.async, activeJob?_eq_none_iff.mpr fun k hmember hhash => ?_⟩
  rw [hjobs] at hmember
  rcases List.mem_append.mp hmember with hpresent | hnew
  · exact activeJob?_eq_none_iff.mp hqueues.free k hpresent hhash
  · rw [List.mem_singleton.mp hnew, Job.isActive, hfailed]
    rfl

/-! ## Failed jobs -/

/-- No query is answered with a job that has failed before. -/
theorem runQuery_ne_failed (hsound : s.Sound) {k : Job} (hmember : k ∈ s.jobs) (hfailed : k.status = .failed)
    {r : JobDescriptor} (hanswered : (b.runQuery d s now c).1 = .ok (.job r)) : r.jobId ≠ k.id := by
  have hrun := runQuery_queryRun b d s now c
  generalize b.runQuery d s now c = result at hrun hanswered
  cases hrun with
  | stale hstale => cases hanswered
  | served hcurrent hcached => exact absurd hanswered (storedResult_ne_job _ _ r)
  | @joined j hcurrent huncached hasync hactive =>
    cases hanswered
    intro hsame
    obtain ⟨hpresent, -, hwaits⟩ := mem_active.mp (mem_of_newest? hactive)
    rw [hsound.eq_of_id hpresent hmember hsame, Job.isActive, hfailed] at hwaits
    cases hwaits
  | @queued r' hcurrent huncached hasync hfree hqueued =>
    cases hanswered
    have hid : r'.1.jobId = s.nextId := by cases hqueued <;> rfl
    rw [hid]
    exact (hsound.nextId_fresh k hmember).symm
  | performed hcurrent huncached hsync hperformed => exact absurd hanswered (storedResult_ne_job _ _ r)
  | failed hcurrent huncached hsync hperformed => cases hanswered

end Backend

namespace World

/-- Whatever the store, the configuration and the queue.  A query that is answered with a failure leaves the
world as it was.  If derived fields are stale, the answer says which, and depends on nothing else.  If the
query hands a new job to the queue and the queue refuses it, the query is answered with this job; it is the
only one that is new, has failed with the reason of the queue, and no cached result has changed.  A query of
the same configuration is then handed to the queue again unless a result may be served, and whatever happens
in between, it is never answered with the failed job. -/
theorem query_all_or_nothing (w : World) (b : Backend) (d : Dispatch) (c : Checked) :
    (∀ f, (w.answer b (.runQuery d c)).1 = .response (.error f) → w.step (b, .runQuery d c) = w) ∧
    (staleIds c.val.models c.val.derivedFields ≠ [] → w.answer b (.runQuery d c) =
      (.response (.error (.report (.stale (staleIds c.val.models c.val.derivedFields)))), w)) ∧
    ((∀ j ∈ w.store.jobs, j.id ≠ w.store.nextId) → b.Queues w.store w.now c.val →
      ∀ reason, b.refusal? d w.store w.now (b.capped c.val) = some reason →
      ∃ j w', w.answer b (.runQuery d c) = (.response (.ok (.job j.descriptor)), w') ∧
        w'.store.jobs = w.store.jobs ++ [j] ∧ w'.store.entries = w.store.entries ∧
        j.status = .failed ∧ j.error = some (Backend.queueFailure reason) ∧ j.hash = b.hash c ∧
        (∀ later, w'.store.fresh? (b.hash c) later = none → b.Queues w'.store later c.val) ∧
        (w.Reached → ∀ requests b' d' r,
          ((w'.run requests).answer b' (.runQuery d' c)).1 = .response (.ok (.job r)) → r.jobId ≠ j.id)) := by
  refine ⟨?_, ?_, ?_⟩
  · intro f hfailed
    have hstore := Backend.runQuery_of_error w.clock.property (Answered.response.inj hfailed)
    exact congrArg (fun s => (⟨s, w.clock⟩ : World)) hstore
  · intro hstale
    have hrefused := @Backend.runQuery_of_stale b d w.store w.now c.val hstale
    simp only [answer, hrefused]
  · intro hfresh hqueues reason hrefused
    obtain ⟨j, hid, hhash, hpayload, hfailed, herror, hdescriptor, hjobs, hentries⟩ :=
      Backend.queue_of_refusal hfresh hrefused
    have hran := Backend.runQuery_of_queues hqueues d
    generalize b.queue d w.store w.now (b.capped c.val) = r at hdescriptor hjobs hentries hran
    have hstepped : w.step (b, .runQuery d c) = { w with store := r.2 } := by simp only [step, answer, hran]
    refine ⟨j, { w with store := r.2 }, ?_, hjobs, hentries, hfailed, herror, hhash, ?_, ?_⟩
    · simp only [answer, hran, hdescriptor]
    · intro later huncached
      exact Backend.queues_of_refusal hqueues hjobs hfailed huncached
    · intro hreached requests b' d' r' hanswered
      have hmember : j ∈ r.2.jobs := by
        rw [hjobs]
        exact List.mem_append_right _ List.mem_cons_self
      have hreached' : World.Reached { w with store := r.2 } := hstepped ▸ hreached.run [(b, .runQuery d c)]
      obtain ⟨k, hpresent, hsame, -, -, hended, -⟩ := hreached'.run_keeps requests j hmember
      have hpast : k.status = .failed := (hended (by rw [hfailed]; rfl)).trans hfailed
      rw [← hsame]
      exact Backend.runQuery_ne_failed (hreached'.run requests).sound hpresent hpast
        (Answered.response.inj hanswered)

/-- Three queries to an empty store: the execution of the first fails, the derived field of the second is
stale, and the job of the third is refused by its queue. -/
theorem query_all_or_nothing_refused :
    let b : Backend := ⟨.standard, ⟨[]⟩, [], fun _ => []⟩
    let clock : Clock := ⟨⟨⟨2024, 6, 1⟩, 12, 0, 0, 0, none⟩, by constructor <;> decide⟩
    let c : Config := ⟨["order"], [], [], [⟨⟨"order", "id"⟩, .count, "orders"⟩], [], [], [], 100,
      ⟨true, true, none, none⟩⟩
    let record : Json := .obj [("type", .str "column"), ("model_id", .str "refund"), ("field_id", .str "id")]
    let net : DerivedColumn := ⟨"net", "net", .row, record, .column ⟨"refund", "id"⟩, [], [], none, none, rfl⟩
    let plain : Config := { c with options := ⟨true, false, none, none⟩ }
    let stale : Config := { c with derivedFields := [net] }
    let w := start clock
    ∃ (h : c.WellFormed) (hp : plain.WellFormed) (hs : stale.WellFormed),
      (w.answer b (.runQuery .record ⟨plain, hp⟩)).1 =
        .response (.error (.report (.query (.unknownModel "order")))) ∧
      w.step (b, .runQuery .record ⟨plain, hp⟩) = w ∧
      w.answer b (.runQuery .record ⟨stale, hs⟩) = (.response (.error (.report (.stale ["net"]))), w) ∧
      ∃ j w', w.answer b (.runQuery (.fail "broker down") ⟨c, h⟩) = (.response (.ok (.job j.descriptor)), w') ∧
        w'.store.jobs = [j] ∧ j.error = some "Could not queue job: broker down" ∧
        b.Queues w'.store clock.val c ∧
        ∀ requests d r, ((w'.run requests).answer b (.runQuery d ⟨c, h⟩)).1 = .response (.ok (.job r)) →
          r.jobId ≠ j.id := by
  intro b clock c record net plain stale w
  have hwellFormed : c.WellFormed := by
    constructor <;>
      simp [c, Config.objection, Config.hasRepeats, Config.outputAliases, Collection.distinct]
  have hwellFormedPlain : plain.WellFormed := ⟨hwellFormed.models, hwellFormed.joins, hwellFormed.records,
    hwellFormed.limit, hwellFormed.ttl, hwellFormed.fits⟩
  have hwellFormedStale : stale.WellFormed := by
    constructor <;>
      simp [stale, c, net, record, Config.objection, Config.hasRepeats, Config.outputAliases,
        Collection.distinct]
  refine ⟨hwellFormed, hwellFormedPlain, hwellFormedStale, ?_⟩
  obtain ⟨hunchanged, -, -⟩ := query_all_or_nothing w b .record ⟨plain, hwellFormedPlain⟩
  obtain ⟨-, hrefused, -⟩ := query_all_or_nothing w b .record ⟨stale, hwellFormedStale⟩
  obtain ⟨-, -, hqueued⟩ := query_all_or_nothing w b (.fail "broker down") ⟨c, hwellFormed⟩
  have hqueues : b.Queues w.store w.now c := ⟨rfl, rfl, rfl, rfl⟩
  obtain ⟨j, w', hanswered, hjobs, hentries, -, herror, -, hagain, hnever⟩ :=
    hqueued (List.forall_mem_nil _) hqueues "broker down" rfl
  have huncached : w'.store.fresh? (b.hash ⟨c, hwellFormed⟩) clock.val = none := by
    rw [Store.fresh?, Store.entry?, hentries]
    rfl
  have houtside : staleIds stale.models stale.derivedFields ≠ [] := List.cons_ne_nil "net" []
  have hfailed : (w.answer b (.runQuery .record ⟨plain, hwellFormedPlain⟩)).1 =
      .response (.error (.report (.query (.unknownModel "order")))) := rfl
  exact ⟨hfailed, hunchanged _ hfailed, hrefused houtside, j, w', hanswered, hjobs, herror, hagain _ huncached,
    fun requests d r => hnever ⟨clock, [], rfl⟩ requests b d r⟩

end World

end AdhocReport.Service
