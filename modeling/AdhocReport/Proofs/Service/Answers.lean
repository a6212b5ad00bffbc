import AdhocReport.Proofs.Service.Results
set_option autoImplicit false

/-!
# The answers of a service

Whether it is computed now, served from the cache or kept with a job, a result is that of an execution,
and so is an error: the paths that lead to an answer differ, but each of them ends at a record of the same
query.
-/

namespace AdhocReport.Service

open AdhocReport.Query

/-! ## Answers to one operation -/

namespace Backend

open Store

/-- A result shows the execution of a configuration: its columns, the values of its rows, its text, the number of
its rows and the hash of the configuration. -/
structure Shows (b : Backend) (c : Checked) (r : ImmediateResult) : Prop where
  table : ∃ t, b.outcome c = .ok t ∧ r.columns = t.columns ∧ t.cells = r.rows.map Row.cells ∧ r.sql = some t.sql
  rowCount : r.info.rowCount = r.rows.length
  hash : r.info.hash = some (b.hash c)

variable {b : Backend} {asked : List Checked} {s : Store}

/-- A record of an execution is read as a result that shows it. -/
theorem Recorded.shows {c : Checked} {record : Json} (h : b.Recorded c record) (mark : ResultMeta → ResultMeta)
    (hkeeps : ∀ m, (mark m).rowCount = m.rowCount ∧ (mark m).hash = m.hash) :
    ∃ r, storedResult record mark = .ok r ∧ b.Shows c r := by
  obtain ⟨t, rows, jobId, moment, hshown, hexecuted, hkept, rfl⟩ := h
  refine ⟨_, storedResult_resultRecord t rows (b.hash c) jobId hshown mark,
    ⟨t, hexecuted, rfl, ResultTable.keptRows_eq_ok_iff.mp hkept, rfl⟩, ?_, ?_⟩
  · exact (hkeeps _).1
  · exact (hkeeps _).2

theorem CollisionFree.shows (hfree : b.CollisionFree asked) {c c' : Checked} (hc : c ∈ asked) (hc' : c' ∈ asked)
    (hsame : b.hash c = b.hash c') {r : ImmediateResult} (h : b.Shows c r) : b.Shows c' r := by
  refine ⟨?_, h.rowCount, hsame ▸ h.hash⟩
  rw [← hfree.outcome_eq hc hc' hsame]
  exact h.table

/-- A cached result that is served for a configuration shows its execution. -/
theorem fresh_shows (hfree : b.CollisionFree asked) (hfaithful : s.Faithful b asked) {c : Checked} (hknown : c ∈ asked)
    {now : Calendar.Moment} {e : CacheEntry} (hcached : s.fresh? (b.hash c) now = some e) :
    ∃ r, storedResult e.result (fromCache e.cachedAt) = .ok r ∧ b.Shows c r := by
  obtain ⟨hfound, -⟩ := Option.filter_eq_some_iff.mp hcached
  obtain ⟨c', hknown', hhash, hrecorded⟩ := hfaithful.entries e (List.mem_of_find?_eq_some hfound)
  obtain ⟨r, hread, hshows⟩ := hrecorded.shows (fromCache e.cachedAt) fun m => ⟨rfl, rfl⟩
  have hhere : e.hash = b.hash c := by simpa using List.find?_some hfound
  exact ⟨r, hread, hfree.shows hknown' hknown (hhash.symm.trans hhere) hshows⟩

/-- Whatever result a query is answered with shows its execution. -/
theorem runQuery_shows (hfree : b.CollisionFree asked) (hfaithful : s.Faithful b asked) {c : Checked}
    (hknown : c ∈ asked) {d : Dispatch} {now : Calendar.Moment} (hshown : now.Shown) {r : ImmediateResult}
    (h : (b.runQuery d s now c.val).1 = .ok (.result r)) : b.Shows c r := by
  have hrun := runQuery_queryRun b d s now c.val
  generalize b.runQuery d s now c.val = result at hrun h
  cases hrun with
  | stale hstale => cases h
  | served hcurrent hcached =>
    obtain ⟨r', hread, hshows⟩ := fresh_shows hfree hfaithful hknown hcached
    rw [hread] at h
    cases h
    exact hshows
  | joined hcurrent huncached hasync hactive => cases h
  | queued hcurrent huncached hasync hfree hqueued => cases h
  | performed hcurrent huncached hsync hperformed =>
    obtain ⟨r', hread, hshows⟩ := (perform_faithful hfaithful hknown hshown hperformed).1.shows id fun m => ⟨rfl, rfl⟩
    rw [hread] at h
    cases h
    exact hshows
  | failed hcurrent huncached hsync hperformed => cases h

theorem job?_changeJob {j : Job} {f : Job → Job} (hfound : s.job? j.id = some j) (hkeeps : ∀ k, (f k).id = k.id) :
    (s.changeJob j.id f).job? j.id = some (f j) := by
  have hsame : ((fun k : Job => k.id == j.id) ∘ fun k => if k.id = j.id then f k else k) =
      fun k => k.id == j.id := by
    funext k
    rw [Function.comp_apply]
    split
    · rw [hkeeps k]
    · rfl
  unfold Store.job? Store.changeJob at *
  rw [List.find?_map, hsame, hfound, Option.map_some, if_pos rfl]

/-- A job of the hash of a configuration is for a configuration with the same outcome. -/
theorem isFor_of_hash (hfree : b.CollisionFree asked) (hfaithful : s.Faithful b asked) {c : Checked}
    (hknown : c ∈ asked) {j : Job} (hmember : j ∈ s.jobs) (hhash : j.hash = b.hash c) :
    ∃ c' ∈ asked, j.IsFor b c' ∧ b.hash c' = b.hash c ∧ b.outcome c' = b.outcome c := by
  obtain ⟨c', hknown', hholds⟩ := hfaithful.jobs j hmember
  have hsame := hholds.hash.symm.trans hhash
  exact ⟨c', hknown', hholds, hsame, hfree.outcome_eq hknown' hknown hsame⟩

/-- Whatever result a job of a configuration is answered with shows its execution. -/
theorem getJob_shows (hfree : b.CollisionFree asked) (hsound : s.Sound) (hfaithful : s.Faithful b asked) {c : Checked}
    (hknown : c ∈ asked) {j : Job} (hmember : j ∈ s.jobs) (hhash : j.hash = b.hash c) {r : ImmediateResult}
    (h : s.getJob j.id = .ok (.result r)) : b.Shows c r := by
  obtain ⟨c', hknown', hholds, hsame, -⟩ := isFor_of_hash hfree hfaithful hknown hmember hhash
  unfold Store.getJob at h
  rw [job?_of_mem hsound hmember] at h
  dsimp only at h
  split at h
  · rename_i record _ hkept
    obtain ⟨r', hread, hshows⟩ := (hholds.result record hkept).shows (fun m => m) fun m => ⟨rfl, rfl⟩
    rw [hread] at h
    cases h
    exact hfree.shows hknown' hknown hsame hshows
  · cases h

/-- The descriptor of a queued job is that of a job of the store. -/
theorem queued_job {d : Dispatch} {now : Calendar.Moment} {c : Config} {r : JobDescriptor × Store}
    (h : Queued b d s now c r) (hsound : s.Sound) (hadmitted : c.Admitted)
    (hfree : s.activeJob? c.hash = none) : ∃ j ∈ r.2.jobs, j.id = r.1.jobId ∧ j.hash = c.hash := by
  have hnew : newJob s now c ∈ (s.addJob (newJob s now c)).jobs :=
    List.mem_append_right _ (List.mem_singleton.mpr rfl)
  have hchanged : ∀ (t : Store) (j : Job) (id : String) (error : String), j ∈ t.jobs →
      ∃ k ∈ (t.changeJob id fun k => k.fail now error).jobs, k.id = j.id ∧ k.hash = j.hash := by
    intro t j id error hmember
    refine ⟨_, mem_changeJob.mpr ⟨j, hmember, rfl⟩, ?_⟩
    split <;> exact ⟨rfl, rfl⟩
  have hafterwards : ∀ worker : Settings, ∃ k ∈ (({ b with settings := worker }).runJob
      (s.addJob (newJob s now c)) now s.nextId).2.jobs, k.id = s.nextId ∧ k.hash = c.hash := by
    intro worker
    obtain ⟨k, hmember, hid, hhash, -⟩ := (runJob_writes (hsound.addJob now hadmitted hfree)).1.keeps _ hnew
    exact ⟨k, hmember, hid, hhash⟩
  cases h with
  | waiting hmode => exact ⟨_, hnew, rfl, rfl⟩
  | @refused reason hmode =>
    exact hchanged ((s.addJob (newJob s now c)).dispatch s.nextId) (newJob s now c) s.nextId
      (queueFailure reason) hnew
  | @run worker status t hmode hran =>
    have hkept := hafterwards worker
    rw [hran] at hkept
    exact hkept
  | @broken worker f t hmode hran =>
    have hkept := hafterwards worker
    rw [hran] at hkept
    obtain ⟨k, hmember, hid, hhash⟩ := hkept
    obtain ⟨l, hpresent, hid', hhash'⟩ := hchanged t k s.nextId (queueFailure f.message) hmember
    exact ⟨l, hpresent, hid'.trans hid, hhash'.trans hhash⟩

theorem storedResult_ne_job (record : Json) (mark : ResultMeta → ResultMeta) (r : JobDescriptor) :
    (storedResult record mark).map Response.result ≠ .ok (.job r) := by
  intro h
  cases hread : storedResult record mark with
  | error f =>
    rw [hread] at h
    cases h
  | ok r' =>
    rw [hread] at h
    cases h

/-- A descriptor that answers a query is that of a job of its hash. -/
theorem runQuery_job (hsound : s.Sound) {c : Checked} {d : Dispatch} {now : Calendar.Moment}
    {r : JobDescriptor} (h : (b.runQuery d s now c.val).1 = .ok (.job r)) :
    ∃ j ∈ (b.runQuery d s now c.val).2.jobs, j.id = r.jobId ∧ j.hash = b.hash c := by
  have hrun := runQuery_queryRun b d s now c.val
  generalize b.runQuery d s now c.val = result at hrun h
  cases hrun with
  | stale hstale => cases h
  | served hcurrent hcached => exact absurd h (storedResult_ne_job _ _ r)
  | joined hcurrent huncached hasync hactive =>
    cases h
    obtain ⟨hpresent, hhash, -⟩ := mem_active.mp (mem_of_newest? hactive)
    exact ⟨_, hpresent, rfl, hhash⟩
  | queued hcurrent huncached hasync hfree hqueued =>
    cases h
    exact queued_job hqueued hsound (capped_admitted c.property hcurrent) hfree
  | performed hcurrent huncached hsync hperformed => exact absurd h (storedResult_ne_job _ _ r)
  | failed hcurrent huncached hsync hperformed => cases h

/-- The execution of a configuration that does not fit its derived columns raises that. -/
theorem outcome_stale {c : Checked} {e : ReportError}
    (hstale : ensureCurrent c.val.models c.val.derivedFields = .error e) : b.outcome c = .error (.report e) := by
  obtain ⟨l, hcapped⟩ := b.capped_eq c.val
  rw [outcome, hcapped, Target.execute, Target.analytics, current]
  simp only [hstale]
  rfl

/-- A query that is run at once is answered with a result that shows its execution, or with an error that its
execution raises before anything is run, or with what keeps it from being performed. -/
theorem runQuery_sync (hfree : b.CollisionFree asked) (hfaithful : s.Faithful b asked) {c : Checked}
    (hknown : c ∈ asked) (hsync : b.runsAsync c.val = false) {now : Calendar.Moment} (hshown : now.Shown)
    (d : Dispatch) : (∃ r, (b.runQuery d s now c.val).1 = .ok (.result r) ∧ b.Shows c r) ∨
      (∃ e, (b.runQuery d s now c.val).1 = .error (.report e) ∧ b.outcome c = .error (.report e)) ∨
      ∃ setback : Setback, (b.runQuery d s now c.val).1 = .error setback.failure ∧
        b.perform s now (b.capped c.val) (b.hash c) none = .error setback := by
  have hcapped : b.runsAsync (b.capped c.val) = false := (b.runsAsync_capped c.val).trans hsync
  have hrun := runQuery_queryRun b d s now c.val
  generalize b.runQuery d s now c.val = result at hrun
  cases hrun with
  | stale hstale => exact .inr (.inl ⟨_, rfl, outcome_stale hstale⟩)
  | served hcurrent hcached =>
    obtain ⟨r, hread, hshows⟩ := fresh_shows hfree hfaithful hknown hcached
    exact .inl ⟨r, by rw [hread]; rfl, hshows⟩
  | joined hcurrent huncached hasync hactive => cases hcapped.symm.trans hasync
  | queued hcurrent huncached hasync hfree hqueued => cases hcapped.symm.trans hasync
  | performed hcurrent huncached _ hperformed =>
    obtain ⟨r, hread, hshows⟩ :=
      (perform_faithful hfaithful hknown hshown hperformed).1.shows id fun m => ⟨rfl, rfl⟩
    exact .inl ⟨r, by rw [hread]; rfl, hshows⟩
  | failed hcurrent huncached _ hperformed => exact .inr (.inr ⟨_, rfl, hperformed⟩)

/-- A query that is run at once raises the error that its execution raises. -/
theorem runQuery_report (hfree : b.CollisionFree asked) (hfaithful : s.Faithful b asked) {c : Checked}
    (hknown : c ∈ asked) (hsync : b.runsAsync c.val = false) {e : ReportError}
    (herror : b.outcome c = .error (.report e)) {now : Calendar.Moment} (hshown : now.Shown) (d : Dispatch) :
    (b.runQuery d s now c.val).1 = .error (.report e) := by
  rcases runQuery_sync hfree hfaithful hknown hsync hshown d with
    ⟨r, -, hshows⟩ | ⟨e', hanswer, herror'⟩ | ⟨setback, hanswer, hfailed⟩
  · obtain ⟨t, hexecuted, -⟩ := hshows.table
    cases herror.symm.trans hexecuted
  · cases herror.symm.trans herror'
    exact hanswer
  · cases (perform_error herror _ _ _ _).symm.trans hfailed
    exact hanswer

/-- A query that is run at once is answered with a result if its execution gives one, there is no span among its
values, and it may be kept until a moment of the calendar. -/
theorem runQuery_result (hfree : b.CollisionFree asked) (hfaithful : s.Faithful b asked) {c : Checked}
    (hknown : c ∈ asked) (hsync : b.runsAsync c.val = false) {t : ResultTable} (hexecuted : b.outcome c = .ok t)
    (hjson : ¬ t.HoldsSpan) {now expiresAt : Calendar.Moment} (hshown : now.Shown)
    (hmoment : momentAfter now (b.ttl (b.capped c.val)) = .ok expiresAt) (d : Dispatch) :
    ∃ r, (b.runQuery d s now c.val).1 = .ok (.result r) := by
  rcases runQuery_sync hfree hfaithful hknown hsync hshown d with
    ⟨r, hanswer, -⟩ | ⟨e, -, herror⟩ | ⟨setback, -, hfailed⟩
  · exact ⟨r, hanswer⟩
  · cases hexecuted.symm.trans herror
  · obtain ⟨rows, hrows⟩ := ResultTable.exists_keptRows hjson
    cases (perform_ok hexecuted hmoment hrows _ _ _).symm.trans hfailed

/-- A query that is run at once fails if there is a span among the values of its result. -/
theorem runQuery_span (hfree : b.CollisionFree asked) (hfaithful : s.Faithful b asked) {c : Checked}
    (hknown : c ∈ asked) (hsync : b.runsAsync c.val = false) {t : ResultTable} (hexecuted : b.outcome c = .ok t)
    (hspan : t.HoldsSpan) {now expiresAt : Calendar.Moment} (hshown : now.Shown)
    (hmoment : momentAfter now (b.ttl (b.capped c.val)) = .ok expiresAt) (d : Dispatch) :
    (b.runQuery d s now c.val).1 = .error .spanInRecord := by
  rcases runQuery_sync hfree hfaithful hknown hsync hshown d with
    ⟨r, -, hshows⟩ | ⟨e, -, herror⟩ | ⟨setback, hanswer, hfailed⟩
  · obtain ⟨t', hexecuted', -, hcells, -⟩ := hshows.table
    cases hexecuted.symm.trans hexecuted'
    exact absurd hspan (ResultTable.not_holdsSpan hcells)
  · cases hexecuted.symm.trans herror
  · cases (perform_unwritten hexecuted hmoment hspan _ _ _).symm.trans hfailed
    exact hanswer

/-- A job of a configuration fails with the error that the execution raises. -/
theorem runJob_report (hinRange : 1 ≤ b.settings.maxRowLimit) (hfree : b.CollisionFree asked) (hsound : s.Sound)
    (hfaithful : s.Faithful b asked) {c : Checked} (hknown : c ∈ asked) {e : ReportError}
    (herror : b.outcome c = .error (.report e)) {j : Job} (hmember : j ∈ s.jobs) (hhash : j.hash = b.hash c)
    (hactive : j.isActive = true) (now : Calendar.Moment) :
    b.runJob s now j.id = (.ok .failed, s.changeJob j.id fun k => (k.start now).fail now e.message) := by
  obtain ⟨c', -, hholds, -, houtcome⟩ := isFor_of_hash hfree hfaithful hknown hmember hhash
  rcases runJob_active hinRange hholds (job?_of_mem hsound hmember) hactive now with
    ⟨t, rows, expiresAt, hexecuted, -⟩ | ⟨f, hfailed, -, hran⟩ | ⟨t, f, hexecuted, -⟩
  · rw [houtcome, herror] at hexecuted
    cases hexecuted
  · rw [hran, hfailed _ (houtcome.trans herror)]
    rfl
  · rw [houtcome, herror] at hexecuted
    cases hexecuted

/-- A finished job of a configuration whose execution raises an error has failed: with that error if a
worker took it up, and otherwise because the queue refused it. -/
theorem failed_of_report (hfree : b.CollisionFree asked) (hsound : s.Sound) (hfaithful : s.Faithful b asked)
    {c : Checked} (hknown : c ∈ asked) {e : ReportError} (herror : b.outcome c = .error (.report e)) {j : Job}
    (hmember : j ∈ s.jobs) (hhash : j.hash = b.hash c) (hpast : j.isActive = false) :
    j.status = .failed ∧ (j.startedAt.isSome = true → j.error = some e.message) ∧
      (j.startedAt = none → ∃ reason, j.error = some (queueFailure reason)) := by
  obtain ⟨c', -, hholds, -, houtcome⟩ := isFor_of_hash hfree hfaithful hknown hmember hhash
  have hfailed : j.status = .failed := by
    cases hstatus : j.status with
    | queued =>
      rw [Job.isActive, hstatus] at hpast
      cases hpast
    | running =>
      rw [Job.isActive, hstatus] at hpast
      cases hpast
    | completed =>
      obtain ⟨record, hkept⟩ := Option.isSome_iff_exists.mp ((hsound.jobs j hmember).result.mpr hstatus)
      obtain ⟨t, _, _, _, -, hexecuted, -⟩ := hholds.result record hkept
      rw [houtcome, herror] at hexecuted
      cases hexecuted
    | failed => rfl
  exact ⟨hfailed, fun hstarted => hholds.error hfailed hstarted e (houtcome.trans herror), hholds.refused hfailed⟩

/-- A job of a configuration completes if the execution gives a result with no span among its values that may be
kept, and is then answered with a result. -/
theorem runJob_result (hinRange : 1 ≤ b.settings.maxRowLimit) (hfree : b.CollisionFree asked) (hsound : s.Sound)
    (hfaithful : s.Faithful b asked) {c : Checked} (hknown : c ∈ asked) {t : ResultTable}
    (hexecuted : b.outcome c = .ok t) (hjson : ¬ t.HoldsSpan) {now expiresAt : Calendar.Moment} (hshown : now.Shown)
    (hmoment : momentAfter now (b.ttl (b.capped c.val)) = .ok expiresAt) {j : Job} (hmember : j ∈ s.jobs)
    (hhash : j.hash = b.hash c) (hactive : j.isActive = true) :
    (b.runJob s now j.id).1 = .ok .completed ∧
      ∃ r, (b.runJob s now j.id).2.getJob j.id = .ok (.result r) := by
  obtain ⟨c', hknown', hholds, hsame, houtcome⟩ := isFor_of_hash hfree hfaithful hknown hmember hhash
  have httl : b.ttl (b.capped c'.val) = b.ttl (b.capped c.val) := by
    rw [ttl, ttl, (hfree.alike hknown' hknown hsame).options]
  rcases runJob_active hinRange hholds (job?_of_mem hsound hmember) hactive now with
    ⟨t', rows, expiresAt', hexecuted', -, -, hran⟩ | ⟨f, -, hnever, -⟩ | ⟨t', f, hexecuted', hspan, -⟩
  · have hfound := @job?_changeJob s j
      (fun k => (k.start now).complete now (resultRecord t' rows (b.hash c') (some j.id) now))
      (job?_of_mem hsound hmember) fun _ => rfl
    rw [hran]
    refine ⟨rfl, recordedResult t' rows (b.hash c') (some j.id) now fun m => m, ?_⟩
    show Store.getJob (changeJob s j.id _) j.id = _
    rw [Store.getJob, hfound]
    show (storedResult _ _).map _ = _
    rw [storedResult_resultRecord t' rows (b.hash c') (some j.id) hshown]
    rfl
  · exact absurd (httl ▸ hmoment) (hnever t expiresAt (houtcome.trans hexecuted))
  · cases (houtcome.trans hexecuted).symm.trans hexecuted'
    exact absurd hspan hjson

end Backend

/-! ## Results of runs -/

namespace World

/-- In a world, the answers about a configuration are those of its execution. -/
structure Answers (w : World) (b : Backend) (c : Checked) : Prop where
  /-- A result that answers the query, computed now or served from the cache, shows the execution. -/
  query : ∀ d r, (w.answer b (.runQuery d c)).1 = .response (.ok (.result r)) → b.Shows c r
  /-- A descriptor that answers the query names a job of its hash. -/
  descriptor : ∀ d r, (w.answer b (.runQuery d c)).1 = .response (.ok (.job r)) →
    ∃ j ∈ (w.step (b, .runQuery d c)).store.jobs, j.id = r.jobId ∧ j.hash = b.hash c
  /-- A result that answers for a job of the hash shows the execution. -/
  fetched : ∀ j ∈ w.store.jobs, j.hash = b.hash c → ∀ r,
    (w.answer b (.getJob j.id)).1 = .response (.ok (.result r)) → b.Shows c r
  /-- There is a result at once, if the execution has one without spans that may be kept. -/
  result : ∀ t expiresAt, b.outcome c = .ok t → ¬ t.HoldsSpan →
    momentAfter w.now (b.ttl c.val) = .ok expiresAt → b.runsAsync c.val = false →
    ∀ d, ∃ r, (w.answer b (.runQuery d c)).1 = .response (.ok (.result r))
  /-- There is none at once, if the execution has one with a span, which no record can keep. -/
  span : ∀ t expiresAt, b.outcome c = .ok t → t.HoldsSpan →
    momentAfter w.now (b.ttl c.val) = .ok expiresAt → b.runsAsync c.val = false →
    ∀ d, (w.answer b (.runQuery d c)).1 = .response (.error .spanInRecord)
  /-- A job that is run completes and has a result, if the execution has one without spans that may be kept. -/
  completion : ∀ t expiresAt, b.outcome c = .ok t → ¬ t.HoldsSpan →
    momentAfter w.now (b.ttl c.val) = .ok expiresAt → ∀ j ∈ w.store.jobs, j.hash = b.hash c →
      j.isActive = true → (w.answer b (.runJob j.id)).1 = .status (.ok .completed) ∧
        ∃ r, ((w.step (b, .runJob j.id)).answer b (.getJob j.id)).1 = .response (.ok (.result r))
  /-- An error that the execution raises is raised at once. -/
  error : ∀ e, b.outcome c = .error (.report e) → b.runsAsync c.val = false →
    ∀ d, (w.answer b (.runQuery d c)).1 = .response (.error (.report e))
  /-- A job that is run fails with the text of an error that the execution raises. -/
  failure : ∀ e, b.outcome c = .error (.report e) →
    ∀ j ∈ w.store.jobs, j.hash = b.hash c → j.isActive = true →
      (w.answer b (.runJob j.id)).1 = .status (.ok .failed) ∧
        ∃ k ∈ (w.step (b, .runJob j.id)).store.jobs, k.id = j.id ∧ k.status = .failed ∧
          k.error = some e.message
  /-- A finished job has failed with the text of an error that the execution raises, unless the queue
  refused it before it was run. -/
  failed : ∀ e, b.outcome c = .error (.report e) →
    ∀ j ∈ w.store.jobs, j.hash = b.hash c → j.isActive = false →
      j.status = .failed ∧ (j.startedAt.isSome = true → j.error = some e.message) ∧
        (j.startedAt = none → ∃ reason, j.error = some (Backend.queueFailure reason))

/-- After every run of a service whose workers have its settings, and as long as no two of the texts
that were hashed collide, every result is that of the execution of its configuration with its limit
within the settings, whether it was computed, cached or kept with a job, and every error of a query or a
job is that of the execution. -/
theorem answers_of_execution {b : Backend} (hinRange : 1 ≤ b.settings.maxRowLimit) {asked : List Checked}
    (hfree : b.CollisionFree asked) (clock : Clock) {operations : List Operation}
    (hwithin : ∀ o ∈ operations, o.Within b asked) {c : Checked} (hknown : c ∈ asked) :
    ((start clock).run (operations.map fun o => (b, o))).Answers b c := by
  have hsound := run_sound clock (operations.map fun o => (b, o))
  have hfaithful := run_faithful hinRange clock hwithin
  generalize (start clock).run (operations.map fun o => (b, o)) = w at hsound hfaithful
  have hshown : w.now.Shown := w.clock.property
  have httl := b.ttl_capped c.val
  refine ⟨?_, ?_, ?_, ?_, ?_, ?_, ?_, ?_, ?_⟩
  · intro d r h
    exact Backend.runQuery_shows hfree hfaithful hknown hshown (Answered.response.inj h)
  · intro d r h
    exact Backend.runQuery_job hsound (Answered.response.inj h)
  · intro j hmember hhash r h
    exact Backend.getJob_shows hfree hsound hfaithful hknown hmember hhash (Answered.response.inj h)
  · intro t expiresAt hexecuted hjson hmoment hsync d
    obtain ⟨r, hanswered⟩ :=
      Backend.runQuery_result hfree hfaithful hknown hsync hexecuted hjson hshown (httl ▸ hmoment) d
    exact ⟨r, congrArg Answered.response hanswered⟩
  · intro t expiresAt hexecuted hspan hmoment hsync d
    exact congrArg Answered.response
      (Backend.runQuery_span hfree hfaithful hknown hsync hexecuted hspan hshown (httl ▸ hmoment) d)
  · intro t expiresAt hexecuted hjson hmoment j hmember hhash hactive
    obtain ⟨hran, r, hanswered⟩ := Backend.runJob_result hinRange hfree hsound hfaithful hknown hexecuted hjson hshown
      (httl ▸ hmoment) hmember hhash hactive
    exact ⟨congrArg Answered.status hran, r, congrArg Answered.response hanswered⟩
  · intro e herror hsync d
    exact congrArg Answered.response (Backend.runQuery_report hfree hfaithful hknown hsync herror hshown d)
  · intro e herror j hmember hhash hactive
    have hran := Backend.runJob_report hinRange hfree hsound hfaithful hknown herror hmember hhash hactive w.now
    refine ⟨congrArg (fun r : Outcome JobStatus => Answered.status r.1) hran,
      (j.start w.now).fail w.now e.message, ?_, rfl, rfl, rfl⟩
    show _ ∈ (b.runJob w.store w.now j.id).2.jobs
    rw [hran]
    exact Store.mem_changeJob.mpr ⟨j, hmember, if_pos rfl⟩
  · intro e herror j hmember hhash hpast
    exact Backend.failed_of_report hfree hsound hfaithful hknown herror hmember hhash hpast

/-- A query whose derived field lists the members of its record in another order is answered with the
row that the limit leaves, and a job for a model that is not there fails with the text that says so. -/
theorem answers_of_execution_reordered :
    let b : Backend := ⟨{ Settings.standard with maxRowLimit := 1 },
      ⟨[⟨"order", "Order", "orders", [], [], ""⟩]⟩, [⟨"orders", none, []⟩],
      fun _ => [fun _ => .int 7, fun _ => .int 8]⟩
    let clock : Clock := ⟨⟨⟨2024, 6, 1⟩, 12, 0, 0, 0, none⟩, by constructor <;> decide⟩
    let column (record : Json) (h : Expr.ofJson record = .ok (.literal (.int 2))) : DerivedColumn :=
      ⟨"field-1", "two", .row, record, .literal (.int 2), [], [], none, none, h⟩
    let c : Config := ⟨["order"], [], [], [], [],
      [column (.obj [("type", .str "literal"), ("value", .int 2), ("value_type", .str "number")]) rfl],
      [], 100, .standard⟩
    let c' : Config := ⟨["order"], [], [], [], [],
      [column (.obj [("value", .int 2), ("value_type", .str "number"), ("type", .str "literal")]) rfl],
      [], 100, .standard⟩
    let lost : Config := ⟨["ghost"], [], [], [], [⟨⟨"ghost", "id"⟩, none, "number"⟩], [], [], 100,
      ⟨true, true, none, none⟩⟩
    ∃ (h : c.WellFormed) (h' : c'.WellFormed) (h'' : lost.WellFormed),
      (let w := (start clock).run ([Operation.runQuery .record ⟨c, h⟩].map fun o => (b, o))
      ∃ r, (w.answer b (.runQuery .record ⟨c', h'⟩)).1 = .response (.ok (.result r)) ∧
        r.rows = [[("two", .int 2)]] ∧ r.info.rowCount = 1) ∧
      let w := (start clock).run ([Operation.runQuery .record ⟨lost, h''⟩].map fun o => (b, o))
      ∃ j ∈ w.store.jobs, (w.answer b (.runJob j.id)).1 = .status (.ok .failed) ∧
        ∃ k ∈ (w.step (b, .runJob j.id)).store.jobs, k.id = j.id ∧ k.error = some "Unknown model 'ghost'" := by
  intro b clock column c c' lost
  have h : c.WellFormed := by
    constructor <;> simp [c, column, Options.standard, Config.objection, Config.hasRepeats,
      Config.outputAliases, Collection.distinct]
  have h' : c'.WellFormed := by
    constructor <;> simp [c', column, Options.standard, Config.objection, Config.hasRepeats,
      Config.outputAliases, Collection.distinct]
  have h'' : lost.WellFormed := by
    constructor <;> simp [lost, Config.objection, Config.hasRepeats, Config.outputAliases, Collection.distinct]
  have hinRange : (1 : ℤ) ≤ b.settings.maxRowLimit := by decide
  have hwithin : ∀ (q : Checked) (asked : List Checked), ∀ o ∈ [Operation.runQuery .record q],
      o.Within b (q :: asked) := by
    intro q asked o hmember
    rw [List.mem_singleton.mp hmember]
    exact ⟨List.mem_cons_self, fun worker hwrong => by cases hwrong⟩
  refine ⟨h, h', h'', ?_, ?_⟩
  · have htext : b.hashedText ⟨c, h⟩ = b.hashedText ⟨c', h'⟩ := Json.canonical_eq_iff.mpr rfl
    have hfree : b.CollisionFree [⟨c, h⟩, ⟨c', h'⟩] := by
      refine Backend.collisionFree_of_text (b.hashedText ⟨c', h'⟩) fun q hmember => ?_
      rcases List.mem_cons.mp hmember with rfl | hmember
      · exact htext
      · rw [List.mem_singleton.mp hmember]
    have hanswers := answers_of_execution hinRange hfree clock (hwithin _ _) (c := ⟨c', h'⟩)
      (List.mem_cons_of_mem _ List.mem_cons_self)
    obtain ⟨sql, hexecuted⟩ : ∃ sql, b.outcome ⟨c', h'⟩ = .ok ⟨["two"], [Row.cells [("two", .int 2)]], sql⟩ := ⟨_, rfl⟩
    have hjson : ¬ ResultTable.HoldsSpan ⟨["two"], [Row.cells [("two", .int 2)]], sql⟩ :=
      ResultTable.not_holdsSpan (show _ = [[("two", .int 2)]].map Row.cells from rfl)
    obtain ⟨later, hmoment⟩ : ∃ m, momentAfter clock.val (b.ttl c') = .ok m :=
      AdhocReport.Outcome.isOk_iff.mp (by decide +kernel)
    rw [← show (start clock).now = clock.val from rfl,
      ← now_step_runQuery (start clock) b .record ⟨c, h⟩] at hmoment
    obtain ⟨r, hanswered⟩ := hanswers.result _ _ hexecuted hjson hmoment rfl .record
    obtain ⟨⟨t, hexecuted', -, hcells, -⟩, hcount, -⟩ := hanswers.query _ r hanswered
    cases hexecuted.symm.trans hexecuted'
    have hrows : r.rows = [[("two", .int 2)]] := (ResultTable.rows_of_cells hcells).symm
    rw [hrows] at hcount
    exact ⟨r, hanswered, hrows, hcount⟩
  · have hfree : b.CollisionFree [⟨lost, h''⟩] :=
      Backend.collisionFree_of_text _ fun q hmember => by rw [List.mem_singleton.mp hmember]
    have hanswers := answers_of_execution hinRange hfree clock (hwithin _ _) List.mem_cons_self
    have herror : b.outcome ⟨lost, h''⟩ = .error (.report (.query (.unknownModel "ghost"))) := rfl
    have hjobs : Backend.newJob .empty clock.val (b.capped lost) ∈
        ((start clock).run ([Operation.runQuery .record ⟨lost, h''⟩].map fun o => (b, o))).store.jobs :=
      List.mem_singleton.mpr rfl
    obtain ⟨hran, k, hmember, hid, -, htext⟩ := hanswers.failure _ herror _ hjobs rfl rfl
    exact ⟨_, hjobs, hran, k, hmember, hid, htext⟩

end World

end AdhocReport.Service
