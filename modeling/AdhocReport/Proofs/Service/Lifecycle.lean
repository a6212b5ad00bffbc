import AdhocReport.Proofs.Query.Canonical
import AdhocReport.Proofs.Service.Jobs
set_option autoImplicit false

/-!
# The life of a job

Every operation is a chain of guarded writes, so whatever single writes keep holds at every moment of
every run.  An operation takes up at most the jobs that it ends itself, which is why between operations
no job is running.
-/

namespace AdhocReport.Service

open AdhocReport.Query

namespace Store

/-- A chain of writes. -/
abbrev Writes (s t : Store) : Prop := Relation.ReflTransGen Write s t

theorem Writes.sound {s t : Store} (h : Writes s t) (hsound : s.Sound) : t.Sound := by
  induction h with
  | refl => exact hsound
  | tail hbefore hwrite ih => exact hwrite.sound ih

/-- Every job of the first store is in the second, with the same hash and payload, and what has ended
stays as it ended. -/
def Keeps (s t : Store) : Prop :=
  ∀ j ∈ s.jobs, ∃ k ∈ t.jobs, k.id = j.id ∧ k.hash = j.hash ∧ k.payload = j.payload ∧
    (j.status.isTerminal = true → k.status = j.status) ∧ (j.status = .completed → k.result = j.result)

theorem Keeps.trans {s t u : Store} (h : Keeps s t) (h' : Keeps t u) : Keeps s u := by
  intro j hmember
  obtain ⟨k, hpresent, hid, hhash, hpayload, hended, hresult⟩ := h j hmember
  obtain ⟨l, hpresent', hid', hhash', hpayload', hended', hresult'⟩ := h' k hpresent
  refine ⟨l, hpresent', hid'.trans hid, hhash'.trans hhash, hpayload'.trans hpayload, ?_, ?_⟩
  · intro hterminal
    have hstatus := hended hterminal
    rw [hended' (by rwa [hstatus]), hstatus]
  · intro hcompleted
    have hstatus := hended (by rw [hcompleted]; rfl)
    rw [hresult' (hstatus.trans hcompleted), hresult hcompleted]

theorem Advances.keeps {s t : Store} (h : s.Advances t) : Keeps s t := by
  intro j hmember
  obtain ⟨k, hpresent, hid, hhash, hpayload, hmoves, hresult⟩ := h j hmember
  refine ⟨k, hpresent, hid, hhash, hpayload, ?_, hresult⟩
  intro hterminal
  rcases hmoves with hsame | hmoves
  · exact hsame
  · rw [hmoves.not_terminal] at hterminal
    cases hterminal

theorem Writes.keeps {s t : Store} (h : Writes s t) : Keeps s t := by
  induction h with
  | refl => exact fun j hmember => ⟨j, hmember, rfl, rfl, rfl, fun _ => rfl, fun _ => rfl⟩
  | tail hbefore hwrite ih => exact ih.trans hwrite.advances.keeps

/-- Something holds of the id and the payload of every job that is running. -/
def Running (P : String → Json → Prop) (s : Store) : Prop := ∀ j ∈ s.jobs, j.status = .running → P j.id j.payload

variable {P : String → Json → Prop} {s : Store}

/-- A job that is changed and does not run then needs nothing to hold of it. -/
theorem Running.changeJob {id : String} (hrunning : s.Running fun i p => i = id ∨ P i p) {f : Job → Job}
    (hended : ∀ j, (f j).status ≠ .running) : (s.changeJob id f).Running P := by
  intro k hk hstatus
  obtain ⟨j, hj, rfl⟩ := mem_changeJob.mp hk
  split at hstatus
  · exact absurd hstatus (hended j)
  · rename_i hother
    rw [if_neg hother]
    exact (hrunning j hj hstatus).resolve_left hother

theorem Running.addJob (hrunning : s.Running P) (now : Calendar.Moment) (c : Config) :
    (s.addJob (Backend.newJob s now c)).Running P := by
  intro k hk hstatus
  rcases List.mem_append.mp hk with hk | hnew
  · exact hrunning k hk hstatus
  · rw [List.mem_singleton.mp hnew] at hstatus
    cases hstatus

end Store

namespace Backend

open Store

/-! ## Operations as chains of writes -/

theorem capped_eq (b : Backend) (c : Config) : ∃ l, b.capped c = { c with limit := l } := by
  unfold capped
  split
  · exact ⟨_, rfl⟩
  · exact ⟨c.limit, rfl⟩

theorem runsAsync_capped (b : Backend) (c : Config) : b.runsAsync (b.capped c) = b.runsAsync c := by
  obtain ⟨l, hcapped⟩ := b.capped_eq c
  rw [hcapped]
  rfl

theorem ttl_capped (b : Backend) (c : Config) : b.ttl (b.capped c) = b.ttl c := by
  obtain ⟨l, hcapped⟩ := b.capped_eq c
  rw [hcapped]
  rfl

theorem capped_admitted {b : Backend} {c : Config} (hwellFormed : c.WellFormed)
    (hcurrent : ensureCurrent c.models c.derivedFields = .ok ()) : (b.capped c).Admitted := by
  obtain ⟨l, h⟩ := b.capped_eq c
  exact ⟨c, l, hwellFormed, hcurrent, h⟩

/-- The job that is run is active before and running while it is performed. -/
theorem start_writes {s : Store} {id : String} {j : Job} (hsound : s.Sound) (hfound : s.job? id = some j)
    (hactive : j.isActive = true) (now : Calendar.Moment) :
    Write s (s.changeJob id fun k => k.start now) ∧
      ∀ k ∈ (s.changeJob id fun k => k.start now).jobs, k.id = id → k.status = .running := by
  obtain ⟨hj, hid⟩ := job?_eq_some hfound
  refine ⟨.started now ?_, ?_⟩
  · intro k hk hsame
    rw [hsound.eq_of_id hk hj (hsame.trans hid.symm)]
    exact hactive
  · intro k hk hsame
    obtain ⟨i, -, rfl⟩ := of_mem_changeJob hk hsame
    rfl

/-- Running a job is a chain of writes; if it answers with a failure, the job has not completed. -/
theorem runJob_writes {b : Backend} {s : Store} {now : Calendar.Moment} {id : String} (hsound : s.Sound) :
    Writes s (b.runJob s now id).2 ∧
      ∀ f, (b.runJob s now id).1 = .error f →
        ∀ k ∈ (b.runJob s now id).2.jobs, k.id = id → k.status ≠ .completed := by
  have hrun := runJob_jobRun b s now id
  generalize b.runJob s now id = result at hrun
  cases hrun with
  | unknown hmissing =>
    refine ⟨.refl, fun f _ k hk hsame => ?_⟩
    have := List.find?_eq_none.mp hmissing k hk
    simp [hsame] at this
  | finished hfound hterminal =>
    refine ⟨.refl, fun f hwrong => ?_⟩
    cases hwrong
  | @completed j record t hfound hactive hperformed =>
    obtain ⟨hstart, hruns⟩ := start_writes hsound hfound hactive now
    obtain ⟨e, rfl⟩ := performJob_put hperformed
    refine ⟨((Relation.ReflTransGen.single hstart).tail (.cached _ _)).tail (.completed now record hruns), ?_⟩
    intro f hwrong
    cases hwrong
  | @failed j f hfound hactive hperformed =>
    obtain ⟨hstart, hruns⟩ := start_writes hsound hfound hactive now
    refine ⟨(Relation.ReflTransGen.single hstart).tail (.failed now f.message ?_), ?_⟩
    · intro k hk hsame
      rw [hruns k hk hsame]
      simp
    · intro f' _ k hk hsame
      obtain ⟨i, -, rfl⟩ := of_mem_changeJob hk hsame
      simp [Job.fail]
  | @left j f hfound hactive hperformed =>
    obtain ⟨hstart, hruns⟩ := start_writes hsound hfound hactive now
    refine ⟨.single hstart, fun f' _ k hk hsame => ?_⟩
    rw [hruns k hk hsame]
    simp

theorem queue_writes {b : Backend} {d : Dispatch} {s : Store} {now : Calendar.Moment} {c : Config}
    {r : JobDescriptor × Store} (h : Queued b d s now c r) (hsound : s.Sound) (hadmitted : c.Admitted)
    (hfree : s.activeJob? c.hash = none) : Writes s r.2 := by
  have hadded : Write s (s.addJob (newJob s now c)) := .added now hadmitted hfree
  have hfirst : Writes s (s.addJob (newJob s now c)) := .single hadded
  cases h with
  | waiting hmode => exact hfirst.tail (.dispatched _ _)
  | @refused reason hmode =>
    refine (hfirst.tail (.dispatched _ _)).tail (.failed now _ ?_)
    intro k hk hsame
    rw [hsound.eq_newJob hk hsame]
    simp [newJob]
  | @run worker status t hmode hran =>
    have hnested := @runJob_writes { b with settings := worker } _ now s.nextId (hadded.sound hsound)
    rw [hran] at hnested
    exact hfirst.trans hnested.1
  | @broken worker f t hmode hran =>
    have hnested := @runJob_writes { b with settings := worker } _ now s.nextId (hadded.sound hsound)
    rw [hran] at hnested
    exact (hfirst.trans hnested.1).tail (.failed now _ (hnested.2 f rfl))

theorem runQuery_writes {b : Backend} {d : Dispatch} {s : Store} {now : Calendar.Moment} {c : Config}
    (hsound : s.Sound) (hwellFormed : c.WellFormed) : Writes s (b.runQuery d s now c).2 := by
  have hrun := runQuery_queryRun b d s now c
  generalize b.runQuery d s now c = result at hrun
  cases hrun with
  | stale hstale => exact .refl
  | served hcurrent hcached => exact .refl
  | joined hcurrent huncached hasync hactive => exact .refl
  | queued hcurrent huncached hasync hfree hqueued =>
    exact queue_writes hqueued hsound (capped_admitted hwellFormed hcurrent) hfree
  | performed hcurrent huncached hsync hperformed =>
    obtain ⟨e, rfl⟩ := perform_put hperformed
    exact .single (.cached _ _)
  | failed hcurrent huncached hsync hperformed => exact .refl

/-! ## Running jobs -/

variable {P : String → Json → Prop} {b : Backend} {s : Store} {now : Calendar.Moment}

end Backend

namespace World

open Store

theorem step_writes {w : World} (request : Backend × Operation) (hsound : w.store.Sound) :
    Writes w.store (w.step request).store := by
  obtain ⟨b, operation⟩ := request
  cases operation with
  | runQuery d c => exact Backend.runQuery_writes hsound c.property
  | runJob id => exact (Backend.runJob_writes hsound).1
  | getJob id => exact .refl
  | purge => exact .single (.purged _ _)
  | advance clock => exact .refl

theorem empty_sound : Store.empty.Sound := by
  constructor
  · exact List.forall_mem_nil _
  · exact List.nodup_nil
  · exact List.forall_mem_nil _
  · exact List.forall_mem_nil _

/-- After every run the store is sound. -/
theorem run_sound (clock : Clock) (requests : List (Backend × Operation)) :
    ((start clock).run requests).store.Sound :=
  run_invariant (P := fun w => w.store.Sound) empty_sound requests fun request _ hsound =>
    (step_writes request hsound).sound hsound

/-- A world that some run leads to. -/
def Reached (w : World) : Prop := ∃ clock requests, w = (start clock).run requests

theorem Reached.sound {w : World} (hreached : w.Reached) : w.store.Sound := by
  obtain ⟨clock, requests, rfl⟩ := hreached
  exact run_sound clock requests

theorem Reached.run {w : World} (hreached : w.Reached) (requests : List (Backend × Operation)) :
    (w.run requests).Reached := by
  obtain ⟨clock, before, rfl⟩ := hreached
  exact ⟨clock, before ++ requests, (run_append _ _ _).symm⟩

theorem Reached.run_keeps {w : World} (hreached : w.Reached) (requests : List (Backend × Operation)) :
    w.store.Keeps (w.run requests).store := by
  induction requests generalizing w with
  | nil => exact Writes.keeps .refl
  | cons request rest ih =>
    exact (step_writes request hreached.sound).keeps.trans (ih (hreached.run [request]))

end World

namespace World

end World

end AdhocReport.Service
