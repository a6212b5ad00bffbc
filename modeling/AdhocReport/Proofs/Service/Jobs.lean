import AdhocReport.Proofs.Decimal.Notation
import AdhocReport.Proofs.Service.Run
import Mathlib.Data.List.Nodup
import Mathlib.Logic.Relation
set_option autoImplicit false

/-!
# The jobs of a store

Whatever a service does to its store is a chain of single writes, and each write has a guard that the
service has checked before.  What a write keeps is therefore kept by every operation, also by one that
runs a job inside another operation and by one that fails in its middle.
-/

namespace AdhocReport

namespace Query

/-- A configuration as the service works with it: it was checked, it fits its derived columns, and
its limit may have been replaced. -/
def Config.Admitted (c : Config) : Prop :=
  ∃ (q : Config) (l : Int), q.WellFormed ∧ ensureCurrent q.models q.derivedFields = .ok () ∧
    c = { q with limit := l }

/-- The ways of a job. -/
inductive JobStatus.Moves : JobStatus → JobStatus → Prop
  | start : Moves .queued .running
  | complete : Moves .running .completed
  | fail : Moves .running .failed
  | refuse : Moves .queued .failed

theorem JobStatus.Moves.not_terminal {s t : JobStatus} (h : s.Moves t) : s.isTerminal = false := by
  cases h <;> rfl

end Query

namespace Service

open AdhocReport.Query

/-- A job holds what its status says, and its hash is that of the configuration in its payload. -/
structure Job.Sound (j : Job) : Prop where
  finished : j.finishedAt.isSome = j.status.isTerminal
  result : j.result.isSome = true ↔ j.status = .completed
  error : j.status = .failed → j.error.isSome = true
  payload : ∃ c : Config, c.Admitted ∧ j.payload = c.toJson ∧ j.hash = c.hash

theorem Job.status_of_active {j : Job} (h : j.isActive = true) : j.status = .queued ∨ j.status = .running := by
  rw [isActive] at h
  cases hstatus : j.status with
  | queued => exact .inl rfl
  | running => exact .inr rfl
  | completed =>
    rw [hstatus] at h
    cases h
  | failed =>
    rw [hstatus] at h
    cases h

namespace Store

/-- The id of the job that was added after `n` others. -/
def idOf (n : Nat) : String := "job-" ++ Decimal.padded 3 (n + 1)

/-- The jobs of a store have ids of their own and hold what their statuses say, and no two of one hash
are active. -/
structure Sound (s : Store) : Prop where
  numbered : ∀ j ∈ s.jobs, ∃ n < s.inserted, j.id = idOf n
  distinct : (s.jobs.map fun j => j.id).Nodup
  single : ∀ j ∈ s.jobs, ∀ k ∈ s.jobs, j.isActive = true → k.isActive = true → j.hash = k.hash → j = k
  jobs : ∀ j ∈ s.jobs, j.Sound

/-- One write to a store. -/
inductive Write : Store → Store → Prop
  | added {s : Store} (now : Calendar.Moment) {c : Config} (hadmitted : c.Admitted)
      (hfree : s.activeJob? c.hash = none) : Write s (s.addJob (Backend.newJob s now c))
  | dispatched (s : Store) (id : String) : Write s (s.dispatch id)
  | started {s : Store} {id : String} (now : Calendar.Moment)
      (hactive : ∀ j ∈ s.jobs, j.id = id → j.isActive = true) : Write s (s.changeJob id fun j => j.start now)
  | completed {s : Store} {id : String} (now : Calendar.Moment) (record : Json)
      (hruns : ∀ j ∈ s.jobs, j.id = id → j.status = .running) :
    Write s (s.changeJob id fun j => j.complete now record)
  | failed {s : Store} {id : String} (now : Calendar.Moment) (error : String)
      (hunfinished : ∀ j ∈ s.jobs, j.id = id → j.status ≠ .completed) :
    Write s (s.changeJob id fun j => j.fail now error)
  | cached (s : Store) (e : CacheEntry) : Write s (s.put e)
  | purged (s : Store) (now : Calendar.Moment) : Write s (s.purge now)

/-- Every job of the first store is in the second, with the same hash and payload; its status is the
same or has moved one step, and a completed one has its result. -/
def Advances (s t : Store) : Prop :=
  ∀ j ∈ s.jobs, ∃ k ∈ t.jobs, k.id = j.id ∧ k.hash = j.hash ∧ k.payload = j.payload ∧
    (k.status = j.status ∨ j.status.Moves k.status) ∧ (j.status = .completed → k.result = j.result)

/-! ## Ids -/

theorem idOf_injective {m n : Nat} (h : idOf m = idOf n) : m = n :=
  Nat.succ.inj (Decimal.append_padded_injective h)

/-- The next id is new. -/
theorem Sound.nextId_fresh {s : Store} (hsound : s.Sound) : ∀ j ∈ s.jobs, j.id ≠ s.nextId := by
  intro j hmember hsame
  obtain ⟨n, hbelow, hid⟩ := hsound.numbered j hmember
  have : n = s.inserted := idOf_injective (hid.symm.trans hsame)
  omega

/-! ## Looking for jobs -/

theorem newest?_eq_none_iff {js : List Job} : Job.newest? js = none ↔ js = [] := by
  cases js with
  | nil => exact ⟨fun _ => rfl, fun _ => rfl⟩
  | cons j rest =>
    constructor
    · intro h
      unfold Job.newest? at h
      split at h
      · split at h <;> cases h
      · cases h
    · intro h
      cases h

theorem mem_of_newest? {js : List Job} {j : Job} (h : Job.newest? js = some j) : j ∈ js := by
  induction js with
  | nil => cases h
  | cons k rest ih =>
    unfold Job.newest? at h
    split at h
    · rename_i later hfound
      split at h
      · cases h
        exact List.mem_cons_of_mem _ (ih hfound)
      · cases h
        exact List.mem_cons_self
    · cases h
      exact List.mem_cons_self

theorem mem_active {s : Store} {hash : String} {j : Job} :
    j ∈ s.jobs.filter (fun j => j.hash == hash && j.isActive) ↔
      j ∈ s.jobs ∧ j.hash = hash ∧ j.isActive = true := by
  simp

theorem activeJob?_eq_none_iff {s : Store} {hash : String} :
    s.activeJob? hash = none ↔ ∀ j ∈ s.jobs, j.hash = hash → j.isActive = false := by
  rw [activeJob?, newest?_eq_none_iff, List.filter_eq_nil_iff]
  simp

/-- The active job of a hash is the one that is found. -/
theorem Sound.activeJob?_eq {s : Store} (hsound : s.Sound) {j : Job} (hmember : j ∈ s.jobs)
    (hactive : j.isActive = true) : s.activeJob? j.hash = some j := by
  cases hfound : s.activeJob? j.hash with
  | none =>
    rw [activeJob?_eq_none_iff.mp hfound j hmember rfl] at hactive
    cases hactive
  | some k =>
    obtain ⟨hpresent, hhash, halso⟩ := mem_active.mp (mem_of_newest? hfound)
    rw [hsound.single k hpresent j hmember halso hactive hhash]

theorem job?_eq_some {s : Store} {id : String} {j : Job} (h : s.job? id = some j) :
    j ∈ s.jobs ∧ j.id = id :=
  ⟨List.mem_of_find?_eq_some h, by simpa using List.find?_some h⟩

theorem Sound.eq_of_id {s : Store} (hsound : s.Sound) {j k : Job} (hj : j ∈ s.jobs) (hk : k ∈ s.jobs)
    (hsame : j.id = k.id) : j = k :=
  List.inj_on_of_nodup_map hsound.distinct hj hk hsame

theorem job?_of_mem {s : Store} (hsound : s.Sound) {j : Job} (hmember : j ∈ s.jobs) : s.job? j.id = some j := by
  cases hfound : s.job? j.id with
  | none => exact absurd (by simp) (List.find?_eq_none.mp hfound j hmember)
  | some k =>
    obtain ⟨hpresent, hsame⟩ := job?_eq_some hfound
    rw [hsound.eq_of_id hpresent hmember hsame]

/-- The job that was added is the only one with its id. -/
theorem Sound.eq_newJob {s : Store} (hsound : s.Sound) {now : Calendar.Moment} {c : Config} {k : Job}
    (hmember : k ∈ (s.addJob (Backend.newJob s now c)).jobs) (hsame : k.id = s.nextId) :
    k = Backend.newJob s now c := by
  rcases List.mem_append.mp hmember with hpresent | hnew
  · exact absurd hsame (hsound.nextId_fresh k hpresent)
  · exact List.mem_singleton.mp hnew

/-! ## Writes -/

theorem mem_changeJob {s : Store} {id : String} {f : Job → Job} {k : Job} :
    k ∈ (s.changeJob id f).jobs ↔ ∃ j ∈ s.jobs, (if j.id = id then f j else j) = k :=
  List.mem_map

/-- A job with the id of the one that was changed is that one. -/
theorem of_mem_changeJob {s : Store} {id : String} {f : Job → Job} {k : Job}
    (hmember : k ∈ (s.changeJob id f).jobs) (hsame : k.id = id) : ∃ j ∈ s.jobs, f j = k := by
  obtain ⟨j, hpresent, rfl⟩ := mem_changeJob.mp hmember
  by_cases hhere : j.id = id
  · exact ⟨j, hpresent, (if_pos hhere).symm⟩
  · rw [if_neg hhere] at hsame
    exact absurd hsame hhere

/-- Two changes of a job are one. -/
theorem changeJob_changeJob (s : Store) (id : String) {f : Job → Job} (hkeeps : ∀ j, (f j).id = j.id)
    (g : Job → Job) : (s.changeJob id f).changeJob id g = s.changeJob id fun j => g (f j) := by
  have hcomposed : ∀ j : Job, (if (if j.id = id then f j else j).id = id
      then g (if j.id = id then f j else j) else if j.id = id then f j else j) =
      if j.id = id then g (f j) else j := by
    intro j
    by_cases hhere : j.id = id
    · rw [if_pos hhere, if_pos ((hkeeps j).trans hhere), if_pos hhere]
    · rw [if_neg hhere, if_neg hhere, if_neg hhere]
  simp only [Store.changeJob, List.map_map, Function.comp_def, hcomposed]

/-- A change of one job keeps a store sound if the job stays sound and is not taken up again. -/
theorem Sound.changeJob {s : Store} (hsound : s.Sound) {id : String} {f : Job → Job}
    (hkeeps : ∀ j, (f j).id = j.id ∧ (f j).hash = j.hash)
    (hfine : ∀ j ∈ s.jobs, j.id = id → (f j).Sound ∧ ((f j).isActive = true → j.isActive = true)) :
    (s.changeJob id f).Sound := by
  have hsame : ∀ j : Job, (if j.id = id then f j else j).id = j.id ∧
      (if j.id = id then f j else j).hash = j.hash := by
    intro j
    split
    · exact hkeeps j
    · exact ⟨rfl, rfl⟩
  have hactive : ∀ j ∈ s.jobs, (if j.id = id then f j else j).isActive = true → j.isActive = true := by
    intro j hmember h
    split at h
    · rename_i hhere
      exact (hfine j hmember hhere).2 h
    · exact h
  constructor
  · intro k hmember
    obtain ⟨j, hpresent, rfl⟩ := mem_changeJob.mp hmember
    rw [(hsame j).1]
    exact hsound.numbered j hpresent
  · have hids : (s.changeJob id f).jobs.map (fun j => j.id) = s.jobs.map fun j => j.id := by
      rw [Store.changeJob, List.map_map]
      exact List.map_congr_left fun j _ => (hsame j).1
    rw [hids]
    exact hsound.distinct
  · intro k hmember k' hmember' h h' hhash
    obtain ⟨j, hpresent, rfl⟩ := mem_changeJob.mp hmember
    obtain ⟨j', hpresent', rfl⟩ := mem_changeJob.mp hmember'
    rw [(hsame j).2, (hsame j').2] at hhash
    rw [hsound.single j hpresent j' hpresent' (hactive j hpresent h) (hactive j' hpresent' h') hhash]
  · intro k hmember
    obtain ⟨j, hpresent, rfl⟩ := mem_changeJob.mp hmember
    split
    · rename_i hhere
      exact (hfine j hpresent hhere).1
    · exact hsound.jobs j hpresent

theorem newJob_sound {s : Store} {now : Calendar.Moment} {c : Config} (hadmitted : c.Admitted) :
    (Backend.newJob s now c).Sound :=
  ⟨rfl, by simp [Backend.newJob], by simp [Backend.newJob], c, hadmitted, rfl, rfl⟩

theorem Sound.addJob {s : Store} (hsound : s.Sound) (now : Calendar.Moment) {c : Config}
    (hadmitted : c.Admitted) (hfree : s.activeJob? c.hash = none) :
    (s.addJob (Backend.newJob s now c)).Sound := by
  have hidle := activeJob?_eq_none_iff.mp hfree
  have hmem : ∀ k, k ∈ (s.addJob (Backend.newJob s now c)).jobs ↔
      k ∈ s.jobs ∨ k = Backend.newJob s now c := by
    intro k
    simp [Store.addJob]
  constructor
  · intro k hmember
    rcases (hmem k).mp hmember with hpresent | rfl
    · obtain ⟨n, hbelow, hid⟩ := hsound.numbered k hpresent
      exact ⟨n, Nat.lt_succ_of_lt hbelow, hid⟩
    · exact ⟨s.inserted, Nat.lt_succ_self _, rfl⟩
  · simp only [Store.addJob, List.map_append, List.map_cons, List.map_nil, List.nodup_append]
    refine ⟨hsound.distinct, List.nodup_singleton _, ?_⟩
    intro id hmember id' hsingle
    obtain ⟨k, hpresent, rfl⟩ := List.mem_map.mp hmember
    rw [List.mem_singleton.mp hsingle]
    exact hsound.nextId_fresh k hpresent
  · intro k hmember k' hmember' hactive hactive' hhash
    rcases (hmem k).mp hmember with hpresent | rfl
    · rcases (hmem k').mp hmember' with hpresent' | rfl
      · exact hsound.single k hpresent k' hpresent' hactive hactive' hhash
      · rw [hidle k hpresent hhash] at hactive
        cases hactive
    · rcases (hmem k').mp hmember' with hpresent' | rfl
      · rw [hidle k' hpresent' hhash.symm] at hactive'
        cases hactive'
      · rfl
  · intro k hmember
    rcases (hmem k).mp hmember with hpresent | rfl
    · exact hsound.jobs k hpresent
    · exact newJob_sound hadmitted

theorem Write.sound {s t : Store} (h : Write s t) (hsound : s.Sound) : t.Sound := by
  cases h with
  | added now hadmitted hfree => exact hsound.addJob now hadmitted hfree
  | dispatched id => exact ⟨hsound.numbered, hsound.distinct, hsound.single, hsound.jobs⟩
  | started now hactive =>
    refine hsound.changeJob (fun j => ⟨rfl, rfl⟩) fun j hmember hhere => ?_
    have hfine := hsound.jobs j hmember
    have hunended : j.status.isTerminal = false := by simpa [Job.isActive] using hactive j hmember hhere
    refine ⟨⟨?_, ?_, ?_, hfine.payload⟩, fun _ => hactive j hmember hhere⟩
    · exact hfine.finished.trans hunended
    · have := hfine.result
      rcases Job.status_of_active (hactive j hmember hhere) with hstatus | hstatus
      all_goals
        rw [hstatus] at this
        simpa [Job.start] using this
    · simp [Job.start]
  | completed now record hruns =>
    refine hsound.changeJob (fun j => ⟨rfl, rfl⟩) fun j hmember hhere => ?_
    exact ⟨⟨rfl, by simp [Job.complete], by simp [Job.complete], (hsound.jobs j hmember).payload⟩,
      fun hactive => by cases hactive⟩
  | failed now error hunfinished =>
    refine hsound.changeJob (fun j => ⟨rfl, rfl⟩) fun j hmember hhere => ?_
    have hfine := hsound.jobs j hmember
    refine ⟨⟨rfl, ?_, fun _ => rfl, hfine.payload⟩, fun hactive => by cases hactive⟩
    have := hfine.result
    simp only [hunfinished j hmember hhere, iff_false] at this
    simpa [Job.fail] using this
  | cached e => exact ⟨hsound.numbered, hsound.distinct, hsound.single, hsound.jobs⟩
  | purged now => exact ⟨hsound.numbered, hsound.distinct, hsound.single, hsound.jobs⟩

theorem Advances.of_jobs {s t : Store} (h : ∀ j ∈ s.jobs, j ∈ t.jobs) : s.Advances t :=
  fun j hmember => ⟨j, h j hmember, rfl, rfl, rfl, .inl rfl, fun _ => rfl⟩

theorem Advances.changeJob {s : Store} {id : String} {f : Job → Job}
    (hkeeps : ∀ j, (f j).id = j.id ∧ (f j).hash = j.hash ∧ (f j).payload = j.payload)
    (hmoves : ∀ j ∈ s.jobs, j.id = id → ((f j).status = j.status ∨ j.status.Moves (f j).status) ∧
      (j.status = .completed → (f j).result = j.result)) : s.Advances (s.changeJob id f) := by
  intro j hmember
  refine ⟨_, mem_changeJob.mpr ⟨j, hmember, rfl⟩, ?_⟩
  split
  · rename_i hhere
    exact ⟨(hkeeps j).1, (hkeeps j).2.1, (hkeeps j).2.2, hmoves j hmember hhere⟩
  · exact ⟨rfl, rfl, rfl, .inl rfl, fun _ => rfl⟩

theorem Write.advances {s t : Store} (h : Write s t) : s.Advances t := by
  cases h with
  | added now hadmitted hfree => exact .of_jobs fun j hmember => List.mem_append_left _ hmember
  | dispatched id => exact .of_jobs fun j hmember => hmember
  | started now hactive =>
    refine .changeJob (fun j => ⟨rfl, rfl, rfl⟩) fun j hmember hhere => ⟨?_, fun _ => rfl⟩
    rcases Job.status_of_active (hactive j hmember hhere) with hstatus | hstatus
    · rw [hstatus]
      exact .inr .start
    · exact .inl hstatus.symm
  | completed now record hruns =>
    refine .changeJob (fun j => ⟨rfl, rfl, rfl⟩) fun j hmember hhere => ?_
    rw [hruns j hmember hhere]
    exact ⟨.inr .complete, fun h => by cases h⟩
  | failed now error hunfinished =>
    refine .changeJob (fun j => ⟨rfl, rfl, rfl⟩) fun j hmember hhere => ⟨?_, fun _ => rfl⟩
    cases hstatus : j.status with
    | queued => exact .inr .refuse
    | running => exact .inr .fail
    | completed => exact absurd hstatus (hunfinished j hmember hhere)
    | failed => exact .inl rfl
  | cached e => exact .of_jobs fun j hmember => hmember
  | purged now => exact .of_jobs fun j hmember => hmember

end Store

end Service

end AdhocReport
