import AdhocReport.Proofs.Service.Lifecycle
set_option autoImplicit false

/-!
# The results that a service keeps

What a service caches and what it keeps with its jobs are the records of executions.  A record tells the
hash under which it was made, and a configuration of the same hash is the same query as long as no two of
the hashed texts collide.
-/

namespace AdhocReport.Service

open AdhocReport.Query

/-! ## Stored records -/

/-- The result that the record of a table denotes, with the rows that it keeps. -/
def recordedResult (t : ResultTable) (rows : List Row) (hash : String) (jobId : Option String)
    (now : Calendar.Moment) (mark : ResultMeta → ResultMeta) : ImmediateResult :=
  ⟨t.columns, rows, some t.sql, mark ⟨some now, none, false, some hash, jobId, rows.length⟩⟩

/-- A record that was stored under a clock is read back. -/
theorem storedResult_resultRecord (t : ResultTable) (rows : List Row) (hash : String) (jobId : Option String)
    {now : Calendar.Moment} (hshown : now.Shown) (mark : ResultMeta → ResultMeta) :
    storedResult (resultRecord t rows hash jobId now) mark = .ok (recordedResult t rows hash jobId now mark) := by
  have hfacts : ResultMeta.reader (.obj [("executed_at", .str now.text), ("hash", .str hash),
      ("job_id", Json.ofText? jobId), ("row_count", Json.ofNat rows.length)]) =
      .valid ⟨some now, none, false, some hash, jobId, rows.length⟩ := by
    have hmoment : Check.nullable Check.moment (.str now.text) = .valid (some now) :=
      Check.nullable_of_reader (fun h => by cases h) (Check.moment_text hshown)
    unfold ResultMeta.reader
    rw [Check.record_of_known (by simp [ResultMeta.known])]
    rw [Check.defaulted_of_lookup rfl hmoment]
    cases jobId <;> rfl
  have hbody : ImmediateResult.reader (.obj [("columns", Json.ofTexts t.columns),
      ("rows", .arr (rows.map Json.obj)), ("sql", .str t.sql)]) =
      .valid ⟨t.columns, rows, some t.sql, ResultMeta.empty⟩ := by
    have hcolumns : Check.list Check.text (Json.ofTexts t.columns) = .valid t.columns :=
      Check.list_map fun c _ => rfl
    have hkept : Check.list Check.object (.arr (rows.map Json.obj)) = .valid rows :=
      Check.list_map fun r _ => rfl
    unfold ImmediateResult.reader
    rw [Check.record_of_known (by simp)]
    rw [Check.required_of_lookup rfl hcolumns, Check.required_of_lookup rfl hkept]
    rfl
  unfold storedResult resultRecord
  simp only [Json.lookup_cons, String.reduceEq, if_true, if_false, storedMember, Option.getD_some, isVoid,
    List.isEmpty_cons, Bool.false_eq_true, hfacts, Check.Checked.orFail, AdhocReport.Outcome.bind_ok, hbody]
  rfl

/-! ## What is asked for -/

namespace Backend

/-- What the execution of a configuration gives, with its limit within the settings. -/
def outcome (b : Backend) (c : Checked) : Except Failure ResultTable :=
  b.target.execute b.content (b.capped c.val)

/-- The hash of a configuration, with its limit within the settings. -/
def hash (b : Backend) (c : Checked) : String := (b.capped c.val).hash

/-- The text that is hashed for a configuration. -/
def hashedText (b : Backend) (c : Checked) : String := (b.capped c.val).toJson.canonical

/-- No two of the texts that are hashed for some configurations collide. -/
def CollisionFree (b : Backend) (asked : List Checked) : Prop :=
  ∀ c ∈ asked, ∀ c' ∈ asked, Digest.sha256 (b.hashedText c) = Digest.sha256 (b.hashedText c') →
    b.hashedText c = b.hashedText c'

/-- One text does not collide with itself. -/
theorem collisionFree_of_text {b : Backend} {asked : List Checked} (text : String)
    (h : ∀ c ∈ asked, b.hashedText c = text) : b.CollisionFree asked := by
  intro c hc c' hc' _
  rw [h c hc, h c' hc']

theorem capped_wellFormed {b : Backend} (hinRange : 1 ≤ b.settings.maxRowLimit) (c : Checked) :
    (b.capped c.val).WellFormed := by
  unfold capped
  split
  · exact c.property.withLimit hinRange
  · exact c.property

/-- Without collisions, configurations of one hash are the same query. -/
theorem CollisionFree.alike {b : Backend} {asked : List Checked} (hfree : b.CollisionFree asked) {c c' : Checked}
    (hc : c ∈ asked) (hc' : c' ∈ asked) (hsame : b.hash c = b.hash c') :
    (b.capped c.val).Alike (b.capped c'.val) :=
  Config.alike_of_canonical (hfree c hc c' hc' hsame)

theorem CollisionFree.outcome_eq {b : Backend} {asked : List Checked} (hfree : b.CollisionFree asked)
    {c c' : Checked} (hc : c ∈ asked) (hc' : c' ∈ asked) (hsame : b.hash c = b.hash c') :
    b.outcome c = b.outcome c' :=
  (hfree.alike hc hc' hsame).execute b.target b.content

/-- A record holds the result of an execution. -/
def Recorded (b : Backend) (c : Checked) (record : Json) : Prop :=
  ∃ t rows jobId moment, Calendar.Moment.Shown moment ∧ b.outcome c = .ok t ∧ t.keptRows = .ok rows ∧
    record = resultRecord t rows (b.hash c) jobId moment

theorem perform_error {b : Backend} {c : Checked} {f : Failure} (h : b.outcome c = .error f) (s : Store)
    (now : Calendar.Moment) (hash : String) (jobId : Option String) :
    b.perform s now (b.capped c.val) hash jobId = .error (.failed f) := by
  unfold outcome at h
  rw [perform, h]
  rfl

theorem perform_ok {b : Backend} {c : Checked} {t : ResultTable} {now expiresAt : Calendar.Moment}
    (hexecuted : b.outcome c = .ok t) (hmoment : momentAfter now (b.ttl (b.capped c.val)) = .ok expiresAt)
    {rows : List Row} (hrows : t.keptRows = .ok rows) (s : Store) (hash : String) (jobId : Option String) :
    b.perform s now (b.capped c.val) hash jobId = .ok (resultRecord t rows hash jobId now,
      s.put ⟨hash, resultRecord t rows hash jobId now, (b.capped c.val).options.templateId, now, expiresAt⟩) := by
  unfold outcome at hexecuted
  simp only [perform, hexecuted, hmoment, hrows, Except.mapError, AdhocReport.Outcome.bind_ok]

theorem perform_unwritten {b : Backend} {c : Checked} {t : ResultTable} {now expiresAt : Calendar.Moment}
    (hexecuted : b.outcome c = .ok t) (hmoment : momentAfter now (b.ttl (b.capped c.val)) = .ok expiresAt)
    (hspan : t.HoldsSpan) (s : Store) (hash : String) (jobId : Option String) :
    b.perform s now (b.capped c.val) hash jobId = .error (.unwritten .spanInRecord) :=
  perform_eq_unwritten_iff.mpr ⟨rfl, t, expiresAt, hexecuted, hmoment, hspan⟩

/-- What is read back from the record of a configuration is performed like it. -/
theorem perform_finite (b : Backend) (s : Store) (now : Calendar.Moment) (c : Config) (hash : String)
    (jobId : Option String) : b.perform s now c.finite hash jobId = b.perform s now c hash jobId := by
  rw [perform, perform, c.finite_alike.execute b.target b.content]
  rfl

/-- A job performs the configuration that its payload records. -/
theorem performJob_eq {b : Backend} (hinRange : 1 ≤ b.settings.maxRowLimit) {j : Job} {c : Checked}
    (hpayload : j.payload = (b.capped c.val).toJson) (s : Store) (now : Calendar.Moment) :
    b.performJob s now j = b.perform s now (b.capped c.val) j.hash (some j.id) := by
  rw [performJob, hpayload, (capped_wellFormed hinRange c).reader_toJson, ← perform_finite]
  rfl

end Backend

/-! ## What a store holds -/

/-- A job is for a configuration: its result is that of the execution, and it fails with the error of
the execution, unless the queue refused it before it was taken up. -/
structure Job.IsFor (j : Job) (b : Backend) (c : Checked) : Prop where
  payload : j.payload = (b.capped c.val).toJson
  hash : j.hash = b.hash c
  result : ∀ record, j.result = some record → b.Recorded c record
  error : j.status = .failed → j.startedAt.isSome = true →
    ∀ e, b.outcome c = .error (.report e) → j.error = some e.message
  refused : j.status = .failed → j.startedAt = none → ∃ reason, j.error = some (Backend.queueFailure reason)

namespace Job.IsFor

variable {j : Job} {b : Backend} {c : Checked}

theorem start (hholds : j.IsFor b c) (now : Calendar.Moment) : (j.start now).IsFor b c :=
  ⟨hholds.payload, hholds.hash, hholds.result, fun hwrong => (by cases hwrong), fun hwrong => (by cases hwrong)⟩

theorem complete (hholds : j.IsFor b c) (now : Calendar.Moment) {record : Json} (hrecorded : b.Recorded c record) :
    (j.complete now record).IsFor b c := by
  refine ⟨hholds.payload, hholds.hash, ?_, fun hwrong => (by cases hwrong), fun hwrong => (by cases hwrong)⟩
  intro record' hsame
  cases hsame
  exact hrecorded

/-- A job that was taken up may fail with any error, unless the execution gives one itself. -/
theorem fail (hholds : j.IsFor b c) (hstarted : j.startedAt.isSome = true) (now : Calendar.Moment) {error : String}
    (herror : ∀ e, b.outcome c = .error (.report e) → error = e.message) : (j.fail now error).IsFor b c := by
  refine ⟨hholds.payload, hholds.hash, hholds.result, ?_, ?_⟩
  · intro _ _ e hfailed
    rw [← herror e hfailed]
    rfl
  · intro _ hwaiting
    have hwaiting : j.startedAt = none := hwaiting
    rw [hwaiting] at hstarted
    cases hstarted

/-- A job that was not taken up may fail with an error of the queue. -/
theorem refuse (hholds : j.IsFor b c) (hwaiting : j.startedAt = none) (now : Calendar.Moment) (reason : String) :
    (j.fail now (Backend.queueFailure reason)).IsFor b c := by
  refine ⟨hholds.payload, hholds.hash, hholds.result, ?_, fun _ _ => ⟨reason, rfl⟩⟩
  intro _ hstarted
  have hstarted : j.startedAt.isSome = true := hstarted
  rw [hwaiting] at hstarted
  cases hstarted

end Job.IsFor

namespace Store

/-- The jobs and cached results of a store are those of the configurations that were asked for. -/
structure Faithful (s : Store) (b : Backend) (asked : List Checked) : Prop where
  entries : ∀ e ∈ s.entries, ∃ c ∈ asked, e.hash = b.hash c ∧ b.Recorded c e.result
  jobs : ∀ j ∈ s.jobs, ∃ c ∈ asked, j.IsFor b c

variable {s : Store} {b : Backend} {asked : List Checked}

theorem Faithful.put (hfaithful : s.Faithful b asked) {e : CacheEntry}
    (hheld : ∃ c ∈ asked, e.hash = b.hash c ∧ b.Recorded c e.result) : (s.put e).Faithful b asked := by
  refine ⟨?_, hfaithful.jobs⟩
  intro d hmember
  rcases mem_putEntry hmember with rfl | hpresent
  · exact hheld
  · exact hfaithful.entries d hpresent

/-- The only job with an id may be changed into one for a configuration that was asked for. -/
theorem Faithful.changeJob (hfaithful : s.Faithful b asked) {id : String} {j : Job}
    (honly : ∀ k ∈ s.jobs, k.id = id → k = j) {f : Job → Job} {c : Checked} (hknown : c ∈ asked)
    (hholds : (f j).IsFor b c) : (s.changeJob id f).Faithful b asked := by
  refine ⟨hfaithful.entries, ?_⟩
  intro k' hmember
  obtain ⟨k, hpresent, rfl⟩ := mem_changeJob.mp hmember
  split
  · rename_i hhere
    rw [honly k hpresent hhere]
    exact ⟨c, hknown, hholds⟩
  · exact hfaithful.jobs k hpresent

theorem Faithful.dispatch (hfaithful : s.Faithful b asked) (id : String) : (s.dispatch id).Faithful b asked :=
  ⟨hfaithful.entries, hfaithful.jobs⟩

theorem Faithful.purge (hfaithful : s.Faithful b asked) (now : Calendar.Moment) :
    (s.purge now).Faithful b asked :=
  ⟨fun e hmember => hfaithful.entries e (List.mem_of_mem_filter hmember), hfaithful.jobs⟩

end Store

/-! ## Operations -/

namespace Backend

open Store

variable {b : Backend} {asked : List Checked} {s : Store}

/-- What is performed for a configuration is recorded and cached. -/
theorem perform_faithful (hfaithful : s.Faithful b asked) {c : Checked} (hknown : c ∈ asked)
    {now : Calendar.Moment} (hshown : now.Shown) {jobId : Option String} {record : Json} {t : Store}
    (hperformed : b.perform s now (b.capped c.val) (b.hash c) jobId = .ok (record, t)) :
    b.Recorded c record ∧ t.Faithful b asked := by
  obtain ⟨table, expiresAt, rows, hexecuted, -, hkept, rfl, rfl⟩ := perform_eq_ok hperformed
  have hrecorded : b.Recorded c (resultRecord table rows (b.hash c) jobId now) :=
    ⟨table, rows, jobId, now, hshown, hexecuted, hkept, rfl⟩
  exact ⟨hrecorded, hfaithful.put ⟨c, hknown, rfl, hrecorded⟩⟩

/-- Running an active job: it completes with the record of its execution, which is cached, it fails with
the failure of the execution, or it is left as it was taken up, as the execution gives a span. -/
theorem runJob_active (hinRange : 1 ≤ b.settings.maxRowLimit) {j : Job} {c : Checked} (hholds : j.IsFor b c)
    (hfound : s.job? j.id = some j) (hactive : j.isActive = true) (now : Calendar.Moment) :
    (∃ t rows expiresAt, b.outcome c = .ok t ∧ t.keptRows = .ok rows ∧
      momentAfter now (b.ttl (b.capped c.val)) = .ok expiresAt ∧ b.runJob s now j.id = (.ok .completed,
        (s.changeJob j.id fun k => (k.start now).complete now (resultRecord t rows (b.hash c) (some j.id) now)).put
          ⟨b.hash c, resultRecord t rows (b.hash c) (some j.id) now, (b.capped c.val).options.templateId, now,
            expiresAt⟩)) ∨
    (∃ f, (∀ f', b.outcome c = .error f' → f = f') ∧
      (∀ t expiresAt, b.outcome c = .ok t → momentAfter now (b.ttl (b.capped c.val)) ≠ .ok expiresAt) ∧
      b.runJob s now j.id = (if f.isExpected then .ok .failed else .error f,
        s.changeJob j.id fun k => (k.start now).fail now f.message)) ∨
    ∃ t f, b.outcome c = .ok t ∧ t.HoldsSpan ∧
      b.runJob s now j.id = (.error (.brokenSession f), s.changeJob j.id fun k => k.start now) := by
  have htwice := @changeJob_changeJob s j.id (fun k => k.start now) fun _ => rfl
  have hrun := runJob_jobRun b s now j.id
  generalize b.runJob s now j.id = result at hrun
  cases hrun with
  | unknown hmissing =>
    rw [hfound] at hmissing
    cases hmissing
  | finished hfound' hterminal =>
    rw [hfound] at hfound'
    cases hfound'
    rw [Job.isActive, hterminal] at hactive
    cases hactive
  | completed hfound' _ hperformed =>
    rw [hfound] at hfound'
    cases hfound'
    rw [performJob_eq hinRange hholds.payload, hholds.hash] at hperformed
    obtain ⟨table, expiresAt, rows, hexecuted, hmoment, hkept, rfl, rfl⟩ := perform_eq_ok hperformed
    refine .inl ⟨table, rows, expiresAt, hexecuted, hkept, hmoment, ?_⟩
    rw [← htwice fun k => k.complete now (resultRecord table rows (b.hash c) (some j.id) now)]
    rfl
  | @failed j' f hfound' _ hperformed =>
    rw [hfound] at hfound'
    cases hfound'
    rw [performJob_eq hinRange hholds.payload, hholds.hash] at hperformed
    refine .inr (.inl ⟨f, ?_, ?_, ?_⟩)
    · intro f' hfailed
      rw [perform_error hfailed] at hperformed
      cases hperformed
      rfl
    · intro t expiresAt hexecuted hmoment
      cases hrows : t.keptRows with
      | ok rows =>
        rw [perform_ok hexecuted hmoment hrows] at hperformed
        cases hperformed
      | error f' =>
        rw [perform_unwritten hexecuted hmoment (ResultTable.keptRows_eq_error hrows).2] at hperformed
        cases hperformed
    · rw [htwice]
  | @left j' f hfound' _ hperformed =>
    rw [hfound] at hfound'
    cases hfound'
    rw [performJob_eq hinRange hholds.payload, hholds.hash] at hperformed
    obtain ⟨rfl, table, expiresAt, hexecuted, -, hspan⟩ := perform_eq_unwritten_iff.mp hperformed
    exact .inr (.inr ⟨table, _, hexecuted, hspan, rfl⟩)

/-- Running a job keeps what the store holds. -/
theorem runJob_faithful (hinRange : 1 ≤ b.settings.maxRowLimit) (hsound : s.Sound)
    (hfaithful : s.Faithful b asked) {now : Calendar.Moment} (hshown : now.Shown) (id : String) :
    (b.runJob s now id).2.Faithful b asked := by
  cases hfound : s.job? id with
  | none =>
    unfold runJob
    rw [hfound]
    exact hfaithful
  | some j =>
    obtain ⟨hmember, rfl⟩ := job?_eq_some hfound
    by_cases hactive : j.isActive = true
    · obtain ⟨c, hknown, hholds⟩ := hfaithful.jobs j hmember
      have honly : ∀ k ∈ s.jobs, k.id = j.id → k = j := fun k hpresent hsame => hsound.eq_of_id hpresent hmember hsame
      rcases runJob_active hinRange hholds hfound hactive now with
        ⟨t, rows, expiresAt, hexecuted, hkept, -, hran⟩ | ⟨f, hfailed, -, hran⟩ | ⟨t, f, hexecuted, -, hran⟩
      · have hrecorded : b.Recorded c (resultRecord t rows (b.hash c) (some j.id) now) :=
          ⟨t, rows, _, now, hshown, hexecuted, hkept, rfl⟩
        rw [hran]
        exact (hfaithful.changeJob honly hknown ((hholds.start now).complete now hrecorded)).put
          ⟨c, hknown, rfl, hrecorded⟩
      · rw [hran]
        refine hfaithful.changeJob honly hknown ((hholds.start now).fail rfl now fun e herror => ?_)
        rw [hfailed _ herror]
        rfl
      · rw [hran]
        exact hfaithful.changeJob honly hknown (hholds.start now)
    · unfold runJob
      rw [hfound]
      have hterminal : j.status.isTerminal = true := by simpa [Job.isActive] using hactive
      simp only [hterminal, if_true]
      exact hfaithful

theorem newJob_isFor (b : Backend) (s : Store) (now : Calendar.Moment) (c : Checked) :
    (newJob s now (b.capped c.val)).IsFor b c :=
  ⟨rfl, rfl, fun _ hwrong => (by cases hwrong), fun hwrong => (by cases hwrong), fun hwrong => (by cases hwrong)⟩

/-- Adding the job of a configuration keeps what the store holds. -/
theorem addJob_faithful (hfaithful : s.Faithful b asked) (now : Calendar.Moment) {c : Checked}
    (hknown : c ∈ asked) : (s.addJob (newJob s now (b.capped c.val))).Faithful b asked := by
  refine ⟨hfaithful.entries, ?_⟩
  intro k hmember
  rcases List.mem_append.mp hmember with hpresent | hnew
  · exact hfaithful.jobs k hpresent
  · rw [List.mem_singleton.mp hnew]
    exact ⟨c, hknown, newJob_isFor b s now c⟩

theorem job?_newJob (hfresh : ∀ j ∈ s.jobs, j.id ≠ s.nextId) (now : Calendar.Moment) (c : Config) :
    (s.addJob (newJob s now c)).job? s.nextId = some (newJob s now c) := by
  have hold : s.jobs.find? (fun j => j.id == s.nextId) = none := by
    rw [List.find?_eq_none]
    intro k hpresent hsame
    exact hfresh k hpresent (by simpa using hsame)
  rw [Store.job?, Store.addJob, List.find?_append, hold]
  simp [newJob]

/-- Queueing the job of a configuration keeps what the store holds. -/
theorem queue_faithful (hinRange : 1 ≤ b.settings.maxRowLimit) (hsound : s.Sound)
    (hfaithful : s.Faithful b asked) {now : Calendar.Moment} (hshown : now.Shown) {c : Checked}
    (hknown : c ∈ asked) (hcurrent : ensureCurrent c.val.models c.val.derivedFields = .ok ())
    (hfree : s.activeJob? (b.capped c.val).hash = none) {d : Dispatch}
    (hsame : ∀ worker, d = .inline worker → worker = b.settings) {r : JobDescriptor × Store}
    (h : Queued b d s now (b.capped c.val) r) : r.2.Faithful b asked := by
  have hadded := addJob_faithful hfaithful now hknown
  have hholds := newJob_isFor b s now c
  have honly : ∀ k ∈ (s.addJob (newJob s now (b.capped c.val))).jobs, k.id = s.nextId →
      k = newJob s now (b.capped c.val) := fun k => hsound.eq_newJob
  cases h with
  | waiting hmode => exact hadded.dispatch s.nextId
  | @refused reason hmode =>
    exact (hadded.dispatch s.nextId).changeJob honly hknown (hholds.refuse rfl now reason)
  | @run worker status t hmode hran =>
    have hsoundAdded := hsound.addJob now (capped_admitted c.property hcurrent) hfree
    have hnested := runJob_faithful hinRange hsoundAdded hadded hshown s.nextId
    rw [hsame worker hmode] at hran
    rw [hran] at hnested
    exact hnested
  | @broken worker f t hmode hran =>
    rw [hsame worker hmode] at hran
    have hran : b.runJob (s.addJob (newJob s now (b.capped c.val))) now
        (newJob s now (b.capped c.val)).id = (.error f, t) := hran
    have hfound := job?_newJob hsound.nextId_fresh now (b.capped c.val)
    rcases runJob_active hinRange hholds hfound rfl now with
      ⟨_, _, _, -, -, -, hcompleted⟩ | ⟨f', hfailed, -, hrefused⟩ | ⟨t', f', hexecuted, -, hleft⟩
    · rw [hran] at hcompleted
      cases hcompleted
    · rw [hran] at hrefused
      split at hrefused
      · cases hrefused
      · rename_i hunexpected
        cases hrefused
        have hreports : ∀ e, b.outcome c ≠ .error (.report e) := by
          intro e herror
          rw [hfailed _ herror] at hunexpected
          exact hunexpected rfl
        show Faithful (changeJob (changeJob _ s.nextId _) s.nextId _) b asked
        rw [changeJob_changeJob]
        · exact hadded.changeJob honly hknown (((hholds.start now).fail rfl now fun e herror =>
            absurd herror (hreports e)).fail rfl now fun e herror => absurd herror (hreports e))
        · exact fun _ => rfl
    · rw [hran] at hleft
      cases hleft
      show Faithful (changeJob (changeJob _ s.nextId _) s.nextId _) b asked
      rw [changeJob_changeJob]
      · refine hadded.changeJob honly hknown ((hholds.start now).fail rfl now fun e herror => ?_)
        cases hexecuted.symm.trans herror
      · exact fun _ => rfl

theorem runQuery_faithful (hinRange : 1 ≤ b.settings.maxRowLimit) (hsound : s.Sound)
    (hfaithful : s.Faithful b asked) {now : Calendar.Moment} (hshown : now.Shown) {c : Checked}
    (hknown : c ∈ asked) {d : Dispatch} (hsame : ∀ worker, d = .inline worker → worker = b.settings) :
    (b.runQuery d s now c.val).2.Faithful b asked := by
  have hrun := runQuery_queryRun b d s now c.val
  generalize b.runQuery d s now c.val = result at hrun
  cases hrun with
  | stale hstale => exact hfaithful
  | served hcurrent hcached => exact hfaithful
  | joined hcurrent huncached hasync hactive => exact hfaithful
  | queued hcurrent huncached hasync hfree hqueued =>
    exact queue_faithful hinRange hsound hfaithful hshown hknown hcurrent hfree hsame hqueued
  | performed hcurrent huncached hsync hperformed => exact (perform_faithful hfaithful hknown hshown hperformed).2
  | failed hcurrent huncached hsync hperformed => exact hfaithful

end Backend

/-! ## Runs -/

/-- The queries of a run are among those that are asked for, and its workers have the settings of the
service. -/
def Operation.Within (b : Backend) (asked : List Checked) : Operation → Prop
  | .runQuery d c => c ∈ asked ∧ ∀ worker, d = .inline worker → worker = b.settings
  | _ => True

namespace World

theorem run_faithful {b : Backend} (hinRange : 1 ≤ b.settings.maxRowLimit) {asked : List Checked}
    (clock : Clock) {operations : List Operation} (hwithin : ∀ o ∈ operations, o.Within b asked) :
    ((start clock).run (operations.map fun o => (b, o))).store.Faithful b asked := by
  refine (run_invariant (P := fun w => w.store.Sound ∧ w.store.Faithful b asked)
    ⟨run_sound clock [], ?_, ?_⟩ _ ?_).2
  · intro e hmember
    cases hmember
  · intro j hmember
    cases hmember
  · intro w request hmember ⟨hsound, hfaithful⟩
    obtain ⟨operation, hhere, rfl⟩ := List.mem_map.mp hmember
    have hwithin := hwithin operation hhere
    refine ⟨(step_writes (b, operation) hsound).sound hsound, ?_⟩
    cases operation with
    | runQuery d c =>
      exact Backend.runQuery_faithful hinRange hsound hfaithful w.clock.property hwithin.1 hwithin.2
    | runJob id => exact Backend.runJob_faithful hinRange hsound hfaithful w.clock.property id
    | getJob id => exact hfaithful
    | purge => exact hfaithful.purge w.now
    | advance clock => exact hfaithful

end World

end AdhocReport.Service
