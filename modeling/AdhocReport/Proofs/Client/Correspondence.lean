import AdhocReport.Proofs.Client.Slot
set_option autoImplicit false

/-!
# The state of the slot and its parts

The state of a slot is written in one place and its result, error and job in others.  They correspond
because a run ends once: while the current run has not ended, nothing is in the slot yet, and what ends it
sets the state and the part that belongs to it together.  Every step of a runner keeps this, in whatever
order submissions, cancellations and answers come.
-/

namespace AdhocReport.Client

open AdhocReport.Query

/-- The parts of a slot are set as its state says. -/
structure Slot.Corresponds (s : Slot) : Prop where
  completed : s.state = .completed ↔ s.result.isSome = true
  failed : s.state = .failed ↔ s.error.isSome = true
  queued : s.state = .queued → s.job.isSome = true
  idle : s.state = .idle → s = .empty

namespace Slot

/-- The slot waits for the end of a run. -/
def Pending (s : Slot) : Prop := s.state = .submitted ∨ s.state = .queued

theorem corresponds_empty : Slot.empty.Corresponds := by
  constructor <;> simp [Slot.empty]

theorem corresponds_submitted : (⟨.submitted, none, none, none⟩ : Slot).Corresponds := by
  constructor <;> simp

/-- A slot that waits has neither a result nor an error. -/
theorem Corresponds.none_of_pending {s : Slot} (h : s.Corresponds) (hpending : s.Pending) :
    s.result = none ∧ s.error = none := by
  have hnoResult : ¬s.result.isSome = true := by
    rw [← h.completed]
    rcases hpending with hstate | hstate <;> simp [hstate]
  have hnoError : ¬s.error.isSome = true := by
    rw [← h.failed]
    rcases hpending with hstate | hstate <;> simp [hstate]
  exact ⟨Option.not_isSome_iff_eq_none.mp hnoResult, Option.not_isSome_iff_eq_none.mp hnoError⟩

/-- There is never a result beside an error. -/
theorem Corresponds.exclusive {s : Slot} (h : s.Corresponds) :
    ¬(s.result.isSome = true ∧ s.error.isSome = true) := by
  rw [← h.completed, ← h.failed]
  rintro ⟨hcompleted, hfailed⟩
  rw [hcompleted] at hfailed
  cases hfailed

theorem Corresponds.complete {s : Slot} (h : s.Corresponds) (hpending : s.Pending) (x : ImmediateResult) :
    ({ s with state := .completed, result := some x } : Slot).Corresponds := by
  obtain ⟨-, hnoError⟩ := h.none_of_pending hpending
  constructor <;> simp [hnoError]

theorem Corresponds.fail {s : Slot} (h : s.Corresponds) (hpending : s.Pending) (job : Option JobDescriptor)
    (e : ReportError) : ({ s with state := .failed, job := job, error := some e } : Slot).Corresponds := by
  obtain ⟨hnoResult, -⟩ := h.none_of_pending hpending
  constructor <;> simp [hnoResult]

theorem Corresponds.wait {s : Slot} (h : s.Corresponds) (hpending : s.Pending) {state : RunnerState}
    (hwaits : state = .submitted ∨ state = .queued) (d : JobDescriptor) :
    ({ s with state := state, job := some d } : Slot).Corresponds := by
  obtain ⟨hnoResult, hnoError⟩ := h.none_of_pending hpending
  rcases hwaits with rfl | rfl <;> constructor <;> simp [hnoResult, hnoError]

/-- A slot that waits is cancelled, and any other is left as it is. -/
theorem Corresponds.cancel {s : Slot} (h : s.Corresponds) :
    ({ s with state := if s.state = .submitted ∨ s.state = .queued then .cancelled else s.state } :
      Slot).Corresponds := by
  split
  · rename_i hpending
    obtain ⟨hnoResult, hnoError⟩ := h.none_of_pending hpending
    constructor <;> simp [hnoResult, hnoError]
  · exact h

end Slot

/-- The step takes a runner to its next generation: it is an accepted submission or a cancellation. -/
def Event.turns (r : Runner) : Event → Bool
  | .submit c fields => (r.submit c fields).isOk
  | .cancel => true
  | .close => true
  | _ => false

namespace Runner

/-- How many steps of a run take the runner to its next generation. -/
def turns (r : Runner) : List Event → Nat
  | [] => 0
  | e :: es => (if e.turns r then 1 else 0) + (r.step e).turns es

/-! ## Generations -/

/-- An effect on the runs or on the callers keeps the generation. -/
theorem Effect.generation_eq {r r' : Runner} {e : Event} (h : Effect r e r')
    (hother : (∀ c fields, e ≠ .submit c fields) ∧ e ≠ .cancel ∧ e ≠ .close) :
    r'.generation = r.generation := by
  cases h with
  | submitted haccepted => exact absurd rfl (hother.1 _ _)
  | cancelled => exact absurd rfl hother.2.1
  | closed => exact absurd rfl hother.2.2
  | _ => rfl

theorem step_generation (r : Runner) (e : Event) :
    (r.step e).generation = r.generation + if e.turns r then 1 else 0 := by
  cases e with
  | submit c fields =>
    cases h : r.submit c fields with
    | ok r' =>
      obtain ⟨hnext, -⟩ := submit_eq_ok h
      simp [step_submit_ok h, hnext, Event.turns, h, Except.isOk, Except.toBool]
    | error e => simp [step_submit_error h, Event.turns, h, Except.isOk, Except.toBool]
  | cancel => exact cancel_generation r
  | close => exact cancel_generation r
  | _ => exact (step_effect r _).generation_eq (by simp)

theorem run_generation (r : Runner) (es : List Event) :
    (r.run es).generation = r.generation + r.turns es := by
  induction es generalizing r with
  | nil => rfl
  | cons e es ih =>
    calc (r.run (e :: es)).generation = (r.step e).generation + (r.step e).turns es := ih _
      _ = r.generation + (if e.turns r then 1 else 0) + (r.step e).turns es := by rw [step_generation]
      _ = r.generation + r.turns (e :: es) := by rw [turns, Nat.add_assoc]

/-! ## The slot -/

/-- The slot corresponds, and it waits as long as the current run has not ended. -/
structure Corresponds (r : Runner) : Prop where
  slot : r.slot.Corresponds
  running : ∀ s, r.submission? r.generation = some s → s.phase.isEnded = false → r.slot.Pending

theorem Corresponds.start (rhythm : Rhythm) : Corresponds (start rhythm) :=
  ⟨Slot.corresponds_empty, fun s hfound => by cases hfound⟩

variable {r r' : Runner}

/-- After a change of submissions that begins no run anew, the slot waits for the runs it waited for. -/
theorem Corresponds.running_of_map (h : Corresponds r) {f : Submission → Submission}
    (hlist : r'.submissions = r.submissions.map f) (hkeeps : ∀ s, (f s).generation = s.generation)
    (hgeneration : r'.generation = r.generation)
    (hran : ∀ s, r.submission? r.generation = some s → (f s).phase.isEnded = false → s.phase.isEnded = false) :
    ∀ s, r'.submission? r'.generation = some s → s.phase.isEnded = false → r.slot.Pending := by
  intro s hfound hrunning
  rw [hgeneration, submission?_of_map hlist hkeeps] at hfound
  obtain ⟨t, hbefore, rfl⟩ := Option.map_eq_some_iff.mp hfound
  exact h.running t hbefore (hran t hbefore hrunning)

/-- A move of a run that has not ended. -/
theorem Corresponds.running_of_moved (h : Corresponds r) {g : Nat} {s : Submission} {p : Phase}
    (hfound : r.submission? g = some s) (hrunning : s.phase.isEnded = false)
    (hmoved : r'.submissions = (r.moveTo g p).submissions) (hgeneration : r'.generation = r.generation) :
    ∀ t, r'.submission? r'.generation = some t → t.phase.isEnded = false → r.slot.Pending := by
  refine h.running_of_map hmoved (fun t => by split <;> rfl) hgeneration fun t hbefore hafter => ?_
  split at hafter
  · rename_i hsame
    rw [generation_of_submission? hbefore] at hsame
    rw [hsame] at hbefore
    rw [← Option.some.inj (hfound.symm.trans hbefore)]
    exact hrunning
  · exact hafter

/-- A cancellation leaves no current run. -/
theorem Corresponds.cancel (h : Corresponds r) (hordered : Ordered r) : Corresponds r.cancel := by
  obtain ⟨asked, hlist⟩ := cancel_submissions r
  constructor
  · rw [cancel_eq]
    exact h.slot.cancel
  · intro s hfound
    rw [cancel_generation, submission?_of_map hlist fun s => rfl] at hfound
    obtain ⟨t, hbefore, -⟩ := Option.map_eq_some_iff.mp hfound
    have hissued := hordered.issued t (List.mem_of_find?_eq_some hbefore)
    rw [generation_of_submission? hbefore] at hissued
    omega

theorem submission?_moveTo_self {g : Nat} {s t : Submission} {p : Phase} (hfound : r.submission? g = some s)
    (hmoved : (r.moveTo g p).submission? g = some t) : t.phase = p := by
  have hhere : (r.moveTo g p).submission? g = some { s with phase := p, stopping := false } := by
    rw [moveTo, submission?_change ?_ hfound, if_pos rfl]
    exact fun s => rfl
  rw [← Option.some.inj (hhere.symm.trans hmoved)]

/-- What an answer leaves: nothing new when it is late, else the end of the run or a longer wait. -/
theorem Corresponds.takes (h : Corresponds r) {g : Nat} {a : Reply} {s : Submission} {p : Phase} {slot : Slot}
    (hfound : r.submission? g = some s) (hrunning : s.phase.isEnded = false) (htakes : Takes r g a p slot)
    (calls : List Call) : Corresponds { r.moveTo g p with slot := slot, calls := calls } := by
  have hwaits (hcurrent : g = r.generation) : r.slot.Pending := h.running s (hcurrent ▸ hfound) hrunning
  have hended {e : Ending} (hcurrent : g = r.generation) (t : Submission)
      (hafter : (r.moveTo g (.ended e)).submission? r.generation = some t) : ¬t.phase.isEnded = false := by
    rw [← hcurrent] at hafter
    rw [submission?_moveTo_self hfound hafter]
    exact Bool.noConfusion
  cases htakes with
  | discarded hlate => exact ⟨h.slot, h.running_of_moved hfound hrunning rfl rfl⟩
  | failedLate hlate hwrong => exact ⟨h.slot, h.running_of_moved hfound hrunning rfl rfl⟩
  | failed hcurrent hwrong =>
    exact ⟨h.slot.fail (hwaits hcurrent) _ _, fun t hafter hrun => absurd hrun (hended hcurrent t hafter)⟩
  | completed hcurrent =>
    exact ⟨h.slot.complete (hwaits hcurrent) _, fun t hafter hrun => absurd hrun (hended hcurrent t hafter)⟩
  | refused hcurrent =>
    exact ⟨h.slot.fail (hwaits hcurrent) _ _, fun t hafter hrun => absurd hrun (hended hcurrent t hafter)⟩
  | @waits d state job polls interval hcurrent hpending =>
    have hstill : state = .submitted ∨ state = .queued := by
      rcases hpending with rfl | rfl
      · exact .inr rfl
      · exact hwaits hcurrent
    exact ⟨h.slot.wait (hwaits hcurrent) hstill d, fun t hafter hrun => hstill⟩

/-- Every step keeps the correspondence. -/
theorem Corresponds.effect (h : Corresponds r) (hordered : Ordered r) {e : Event} (heffect : Effect r e r') :
    Corresponds r' := by
  cases heffect with
  | unchanged => exact h
  | submitted haccepted =>
    obtain ⟨-, hslot, -⟩ := submit_eq_ok haccepted
    exact ⟨hslot ▸ Slot.corresponds_submitted, fun s hfound hrunning => .inl (by rw [hslot])⟩
  | cancelled => exact h.cancel hordered
  | closed => exact h.cancel hordered
  | moved hown hfound hrunning hresultless => exact ⟨h.slot, h.running_of_moved hfound hrunning rfl rfl⟩
  | replied hfound hrunning htakes => exact h.takes hfound hrunning htakes _
  | settled hfound hpast hunaware =>
    exact ⟨h.slot, h.running_of_map rfl (fun s => by split <;> rfl) rfl fun s hbefore => by split <;> exact id⟩
  | abandoned hfound hunaware =>
    exact ⟨h.slot, h.running_of_map rfl (fun s => by split <;> rfl) rfl fun s hbefore => by split <;> exact id⟩

theorem Corresponds.run (rhythm : Rhythm) (es : List Event) : Corresponds ((Runner.start rhythm).run es) := by
  have hboth := @run_invariant (fun _ r => Ordered r ∧ Corresponds r) (Runner.start rhythm)
    ⟨.start rhythm, .start rhythm⟩ (fun h heffect => ⟨h.1.effect heffect, h.2.effect h.1 heffect⟩) es
  exact hboth.2

/-! ## An idle slot -/

theorem Takes.idle {g : Nat} {a : Reply} {p : Phase} {slot : Slot} (h : Takes r g a p slot)
    (hidle : slot.state = .idle) : r.slot.state = .idle := by
  cases h with
  | discarded hlate => exact hidle
  | failedLate hlate hwrong => exact hidle
  | waits hcurrent hpending =>
    rcases hpending with rfl | rfl
    · cases hidle
    · exact hidle
  | _ => cases hidle

/-- No step leads back to an idle slot. -/
theorem Effect.idle {e : Event} (h : Effect r e r') (hidle : r'.slot.state = .idle) : r.slot.state = .idle := by
  have hcancelled (hstate : r.cancel.slot.state = .idle) : r.slot.state = .idle := by
    rw [cancel_eq] at hstate
    dsimp only at hstate
    split at hstate
    · cases hstate
    · exact hstate
  cases h with
  | submitted haccepted =>
    obtain ⟨-, hslot, -⟩ := submit_eq_ok haccepted
    rw [hslot] at hidle
    cases hidle
  | cancelled => exact hcancelled hidle
  | closed => exact hcancelled hidle
  | replied hfound hrunning htakes => exact htakes.idle hidle
  | _ => exact hidle

theorem idle_of_run {es : List Event} (hidle : (r.run es).slot.state = .idle) : r.slot.state = .idle := by
  induction es generalizing r with
  | nil => exact hidle
  | cons e es ih => exact (step_effect r e).idle (ih hidle)

/-! ## Every reachable state -/

/-- Whatever the steps and their order: the slot is completed exactly when it has a result and failed
exactly when it has an error, never with both; a queued slot has its job; an idle slot has been empty all
the time; every accepted submission and every cancellation raises the generation by one and nothing else
changes it; and a cancellation leaves a completed or failed slot as it is. -/
theorem slot_corresponds (rhythm : Rhythm) (es : List Event) :
    let r := (start rhythm).run es
    (r.slot.state = .completed ↔ r.slot.result.isSome = true) ∧
    (r.slot.state = .failed ↔ r.slot.error.isSome = true) ∧
    ¬(r.slot.result.isSome = true ∧ r.slot.error.isSome = true) ∧
    (r.slot.state = .queued → r.slot.job.isSome = true) ∧
    (r.slot.state = .idle → ∀ earlier later, es = earlier ++ later →
      ((start rhythm).run earlier).slot = .empty) ∧
    (∀ e, (r.step e).generation = r.generation + if e.turns r then 1 else 0) ∧
    r.generation = (start rhythm).turns es ∧
    (r.slot.state = .completed ∨ r.slot.state = .failed →
      (r.step .cancel).slot = r.slot ∧ (r.step .close).slot = r.slot) := by
  intro r
  have hslot : r.slot.Corresponds := (Corresponds.run rhythm es).slot
  refine ⟨hslot.completed, hslot.failed, hslot.exclusive, hslot.queued, ?_, step_generation r, ?_, ?_⟩
  · rintro hidle earlier later rfl
    rw [show r = ((start rhythm).run earlier).run later from run_append _ _ _] at hidle
    exact (Corresponds.run rhythm earlier).slot.idle (idle_of_run hidle)
  · rw [run_generation]
    exact Nat.zero_add _
  · intro hpast
    have hkept : r.cancel.slot = r.slot := by
      rw [cancel_eq, if_neg]
      rcases hpast with hstate | hstate <;> simp [hstate]
    exact ⟨hkept, hkept⟩

/-- A late answer to a superseded run does not disturb the failure of the next one. -/
example : ((start (.ofSettings .standard)).run [.submit ⟨["user"], [], [], [], [], [], [], 100, .standard⟩ [],
    .launch 1, .submit ⟨["user"], [], [], [], [], [], [], 100, .standard⟩ [], .launch 2, .reply 2 (.broken "gone"),
    .reply 1 (.answered (.result ⟨["User"], [], none, .empty⟩)), .cancel]).slot =
    ⟨.failed, none, none, some (.transport "gone" none)⟩ := rfl

end Runner

end AdhocReport.Client
