import AdhocReport.Proofs.Service.Results
set_option autoImplicit false

/-!
# What a worker rebuilds from a job

A job keeps the record of the configuration that was queued, with its limit within the settings, and a
worker reads it back.  It finds what was queued, but for the numbers in the records of the trees that
are not finite: they are dumped as null.  Neither the trees nor the hash nor the result depends on them.
-/

namespace AdhocReport.Service

open AdhocReport.Query

/-! ## Where payloads come from -/

namespace Store

/-- Something holds of the hash and the payload of every job. -/
def Every (P : String → Json → Prop) (s : Store) : Prop := ∀ j ∈ s.jobs, P j.hash j.payload

variable {P : String → Json → Prop} {s : Store}

theorem Every.changeJob (hevery : s.Every P) (id : String) {f : Job → Job}
    (hkeeps : ∀ j, (f j).hash = j.hash ∧ (f j).payload = j.payload) : (s.changeJob id f).Every P := by
  intro k hmember
  obtain ⟨j, hpresent, rfl⟩ := mem_changeJob.mp hmember
  split
  · rw [(hkeeps j).1, (hkeeps j).2]
    exact hevery j hpresent
  · exact hevery j hpresent

theorem Every.addJob (hevery : s.Every P) (now : Calendar.Moment) {c : Config} (hholds : P c.hash c.toJson) :
    (s.addJob (Backend.newJob s now c)).Every P := by
  intro k hmember
  rcases List.mem_append.mp hmember with hpresent | hnew
  · exact hevery k hpresent
  · rw [List.mem_singleton.mp hnew]
    exact hholds

end Store

namespace Backend

open Store

variable {P : String → Json → Prop} {s : Store}

theorem runJob_every (hevery : s.Every P) (b : Backend) (now : Calendar.Moment) (id : String) :
    (b.runJob s now id).2.Every P := by
  have hstarted : (s.changeJob id fun k => k.start now).Every P := hevery.changeJob id fun _ => ⟨rfl, rfl⟩
  have hrun := runJob_jobRun b s now id
  generalize b.runJob s now id = result at hrun
  cases hrun with
  | unknown hmissing => exact hevery
  | finished hfound hterminal => exact hevery
  | completed hfound hactive hperformed =>
    obtain ⟨e, rfl⟩ := performJob_put hperformed
    exact Every.changeJob (s := Store.put _ _) hstarted id fun _ => ⟨rfl, rfl⟩
  | failed hfound hactive hperformed => exact hstarted.changeJob id fun _ => ⟨rfl, rfl⟩
  | left hfound hactive hperformed => exact hstarted

theorem queue_every (hevery : s.Every P) {b : Backend} {d : Dispatch} {now : Calendar.Moment} {c : Config}
    (hholds : P c.hash c.toJson) {r : JobDescriptor × Store} (h : Queued b d s now c r) : r.2.Every P := by
  have hadded : (s.addJob (newJob s now c)).Every P := hevery.addJob now hholds
  cases h with
  | waiting hmode => exact hadded
  | refused hmode => exact Every.changeJob (s := Store.dispatch _ _) hadded _ fun _ => ⟨rfl, rfl⟩
  | @run worker status t hmode hran =>
    have hnested := runJob_every hadded { b with settings := worker } now s.nextId
    rw [hran] at hnested
    exact hnested
  | @broken worker f t hmode hran =>
    have hnested := runJob_every hadded { b with settings := worker } now s.nextId
    rw [hran] at hnested
    exact hnested.changeJob _ fun _ => ⟨rfl, rfl⟩

theorem runQuery_every (hevery : s.Every P) (b : Backend) (d : Dispatch) (now : Calendar.Moment) (c : Config)
    (hholds : P (b.capped c).hash (b.capped c).toJson) : (b.runQuery d s now c).2.Every P := by
  have hrun := runQuery_queryRun b d s now c
  generalize b.runQuery d s now c = result at hrun
  cases hrun with
  | queued hcurrent huncached hasync hfree hqueued => exact queue_every hevery hholds hqueued
  | performed hcurrent huncached hsync hperformed =>
    obtain ⟨e, rfl⟩ := perform_put hperformed
    exact hevery
  | _ => exact hevery

/-- The limit within the settings is a limit exactly when the settings allow any row. -/
theorem one_le_limit_capped_iff (b : Backend) (c : Checked) :
    1 ≤ (b.capped c.val).limit ↔ 1 ≤ b.settings.maxRowLimit := by
  have hlimit := c.property.limit
  unfold capped
  split
  · exact Iff.rfl
  · rename_i hwithin
    constructor
    · intro _
      omega
    · intro _
      exact hlimit

/-- What is read from the record of a configuration with its limit within the settings. -/
theorem reader_capped_iff (b : Backend) (c : Checked) (c' : Config) :
    Config.reader (b.capped c.val).toJson = .valid c' ↔
      1 ≤ b.settings.maxRowLimit ∧ c' = (b.capped c.val).finite := by
  rw [← one_le_limit_capped_iff b c]
  obtain ⟨l, hcapped⟩ := b.capped_eq c.val
  rw [hcapped]
  exact c.property.reader_withLimit_iff

end Backend

namespace World

/-- Every job of a run was queued by a query of the run. -/
theorem run_origin (clock : Clock) (requests : List (Backend × Operation)) :
    ∀ j ∈ ((start clock).run requests).store.jobs, ∃ b d c, (b, Operation.runQuery d c) ∈ requests ∧
      j.hash = (b.capped c.val).hash ∧ j.payload = (b.capped c.val).toJson := by
  refine run_invariant (P := fun w => w.store.Every fun hash payload =>
    ∃ b d c, (b, Operation.runQuery d c) ∈ requests ∧
      hash = (b.capped c.val).hash ∧ payload = (b.capped c.val).toJson) ?_ requests ?_
  · intro j hmember
    cases hmember
  · intro w (b, operation) hmember hevery
    cases operation with
    | runQuery d c => exact Backend.runQuery_every hevery b d w.now c.val ⟨b, d, c, hmember, rfl, rfl⟩
    | runJob id => exact Backend.runJob_every hevery b w.now id
    | getJob id => exact hevery
    | purge => exact hevery
    | advance clock => exact hevery

/-- A configuration that was read is read back from its record, with null for the numbers in the records
of its trees that are not finite: it is the same configuration exactly when there are none, and its hash
is the same in any case.  In every run, whatever the services and their settings, a job holds the record
and the hash of a configuration that a query of the run asked for, with its limit within the settings.
If these allow any row, a worker reads that configuration back, and whatever its own settings are it
performs it; otherwise it reads nothing. -/
theorem payload_rebuilds_config :
    (∀ (j : Json) (c : Config), Config.reader j = .valid c →
      Config.reader c.toJson = .valid c.finite ∧ c.finite.hash = c.hash ∧
      (c.finite = c ↔ ∀ d ∈ c.derivedFields, d.record.IsFinite)) ∧
    ∀ (clock : Clock) (requests : List (Backend × Operation)),
      ∀ j ∈ ((start clock).run requests).store.jobs, ∃ b d c, (b, Operation.runQuery d c) ∈ requests ∧
        j.hash = (b.capped c.val).hash ∧ j.payload = (b.capped c.val).toJson ∧
        (∀ c', Config.reader j.payload = .valid c' ↔
          1 ≤ b.settings.maxRowLimit ∧ c' = (b.capped c.val).finite) ∧
        (1 ≤ b.settings.maxRowLimit → ∀ (worker : Backend) (s : Store) (now : Calendar.Moment),
          worker.performJob s now j = worker.perform s now (b.capped c.val) j.hash (some j.id)) := by
  refine ⟨?_, ?_⟩
  · intro j c hvalid
    exact ⟨(Config.wellFormed_of_reader hvalid).reader_toJson, c.hash_finite, Config.finite_eq_self_iff⟩
  · intro clock requests j hmember
    obtain ⟨b, d, c, hasked, hhash, hpayload⟩ := run_origin clock requests j hmember
    have hread : ∀ c', Config.reader j.payload = .valid c' ↔
        1 ≤ b.settings.maxRowLimit ∧ c' = (b.capped c.val).finite := by
      rw [hpayload]
      exact b.reader_capped_iff c
    refine ⟨b, d, c, hasked, hhash, hpayload, hread, ?_⟩
    intro hallowed worker s now
    rw [Backend.performJob, (hread _).mpr ⟨hallowed, rfl⟩, ← Backend.perform_finite]
    rfl

/-- The values of filters keep their kinds: a truth, an integer, a float and a text that look alike are
read back as they were, also by the worker to which the query is handed. -/
theorem payload_rebuilds_config_kinds :
    let b : Backend := ⟨.standard, ⟨[]⟩, [], fun _ => []⟩
    let clock : Clock := ⟨⟨⟨2024, 6, 1⟩, 12, 0, 0, 0, none⟩, by constructor <;> decide⟩
    let values : List Literal := [.truth true, .int 1, .float 1, .text "1"]
    let c : Config := ⟨["order"], [], values.map fun v => ⟨⟨"order", "id"⟩, .eq, v⟩,
      [⟨⟨"order", "id"⟩, .count, "orders"⟩], [], [], [], 100, ⟨true, true, none, none⟩⟩
    values.Nodup ∧ Config.reader c.given = .valid c ∧ Config.reader c.toJson = .valid c ∧
      ∃ h : c.WellFormed, ∃ j,
        ((start clock).run [(b, .runQuery .record ⟨c, h⟩)]).store.jobs = [j] ∧
        j.hash = c.hash ∧ Config.reader j.payload = .valid c := by
  intro b clock values c
  have hwellFormed : c.WellFormed := by
    constructor <;>
      simp [c, values, Config.objection, Config.hasRepeats, Config.outputAliases, Collection.distinct]
  obtain ⟨hread, -, hsame⟩ := payload_rebuilds_config.1 c.given c hwellFormed.reader_given
  have hsame : c.finite = c := hsame.mpr fun d hmember => absurd hmember List.not_mem_nil
  have hjobs : ((start clock).run [(b, .runQuery .record ⟨c, hwellFormed⟩)]).store.jobs =
      [Backend.newJob .empty clock.val c] := rfl
  obtain ⟨b', d, c', hasked, hhash, hpayload, hworker, -⟩ := payload_rebuilds_config.2 clock
    [(b, .runQuery .record ⟨c, hwellFormed⟩)] _ (hjobs ▸ List.mem_singleton.mpr rfl)
  cases List.mem_singleton.mp hasked
  refine ⟨?_, hwellFormed.reader_given, hsame ▸ hread, hwellFormed, _, hjobs, hhash, ?_⟩
  · simp [values]
  · exact hsame ▸ (hworker c.finite).mpr ⟨by decide, rfl⟩

/-- A number that is not finite, beside what the tree is read from, is lost: the configuration is valid, and
what is read back from its record is another one, of the same hash. -/
theorem infinite_member_not_rebuilt :
    let infinity : Float := 1 / 0
    let record (note : Json) : Json :=
      .obj [("type", .str "literal"), ("value", .int 1), ("value_type", .str "number"), ("note", note)]
    let d : DerivedColumn :=
      ⟨"field-1", "one", .row, record (.float infinity), .literal (.int 1), [], [], none, none, rfl⟩
    let c : Config := ⟨["order"], [], [], [], [], [d], [], 100, .standard⟩
    infinity.isInf = true ∧ Config.reader c.given = .valid c ∧
      ∃ c', Config.reader c.toJson = .valid c' ∧ c'.derivedFields.map (·.record) = [record .null] ∧
        c' ≠ c ∧ c'.hash = c.hash := by
  intro infinity record d c
  have hinfinite : infinity.isInf = true := by decide +kernel
  have hwellFormed : c.WellFormed := by
    constructor <;>
      simp [c, d, record, Config.objection, Config.hasRepeats, Config.outputAliases, Collection.distinct,
        Options.standard]
  have hlost : c.finite.derivedFields.map (·.record) = [record .null] := by
    show [(record (.float infinity)).finite] = _
    simp only [record, Json.finite, Json.finiteMembers, hinfinite, Bool.or_true, if_true]
  refine ⟨hinfinite, hwellFormed.reader_given, c.finite, hwellFormed.reader_toJson, hlost, ?_, c.hash_finite⟩
  intro hsame
  rw [hsame] at hlost
  simp [c, d, record] at hlost

end World

end AdhocReport.Service
