import AdhocReport.Client.Runner
set_option autoImplicit false

/-!
# What a step of a runner can do

Every step is one of a few effects: nothing, an accepted submission, a cancellation, a move of one run
that has not ended, or a change of what one caller knows.  Only an answer to the current run brings a
new slot with its move.  Invariants of a runner are proved from these effects and never from the
steps themselves.
-/

namespace AdhocReport.Client

open AdhocReport.Query

/-- The error that an answer amounts to. -/
def Reply.error? : Reply → Option ReportError
  | .answered _ => none
  | .failed e => some e
  | .broken message => some (.transport message none)

namespace Runner

/-- The runner after several steps. -/
def run (r : Runner) (es : List Event) : Runner := es.foldl step r

/-- Where an answer takes the run of a generation, and the slot that it leaves. -/
inductive Takes (r : Runner) (g : Nat) : Reply → Phase → Slot → Prop
  /-- The run is no longer the current one, and what it was told is dropped. -/
  | discarded {response : Response} (hlate : g ≠ r.generation) :
    Takes r g (.answered response) (.ended (.returned none)) r.slot
  | failedLate {a : Reply} {e : ReportError} (hlate : g ≠ r.generation) (hwrong : a.error? = some e) :
    Takes r g a (.ended (.raised e)) r.slot
  | failed {a : Reply} {e : ReportError} (hcurrent : g = r.generation) (hwrong : a.error? = some e) :
    Takes r g a (.ended (.raised e)) { r.slot with state := .failed, error := some e }
  | completed {x : ImmediateResult} (hcurrent : g = r.generation) :
    Takes r g (.answered (.result x)) (.ended (.returned (some x)))
      { r.slot with state := .completed, result := some x }
  /-- The job has failed, or there were enough polls. -/
  | refused {d : JobDescriptor} {e : ReportError} (hcurrent : g = r.generation) :
    Takes r g (.answered (.job d)) (.ended (.raised e))
      { r.slot with state := .failed, job := some d, error := some e }
  | waits {d : JobDescriptor} {state : RunnerState} {job : String} {polls : Nat} {interval : Float}
      (hcurrent : g = r.generation) (hpending : state = .queued ∨ state = r.slot.state) :
    Takes r g (.answered (.job d)) (.sleeping job polls interval)
      { r.slot with state := state, job := some d }

/-- What a step can do to a runner. -/
inductive Effect (r : Runner) : Event → Runner → Prop
  | unchanged (e : Event) : Effect r e r
  | submitted {c : Config} {fields : List DerivedField} {r' : Runner}
      (haccepted : r.submit c fields = .ok r') : Effect r (.submit c fields) r'
  | cancelled : Effect r .cancel r.cancel
  | closed : Effect r .close r.cancel
  /-- A run moves without an answer: it begins, it wakes, or it stops. -/
  | moved {e : Event} {g : Nat} {s : Submission} {p : Phase} {calls : List Call}
      (hown : e = .launch g ∨ e = .wake g ∨ e = .abort g) (hfound : r.submission? g = some s)
      (hrunning : s.phase.isEnded = false) (hresultless : ∀ x, p ≠ .ended (.returned (some x))) :
    Effect r e { r.moveTo g p with calls := r.calls ++ calls }
  | replied {g : Nat} {a : Reply} {s : Submission} {p : Phase} {slot : Slot} {calls : List Call}
      (hfound : r.submission? g = some s) (hrunning : s.phase.isEnded = false)
      (htakes : Takes r g a p slot) :
    Effect r (.reply g a) { r.moveTo g p with slot := slot, calls := r.calls ++ calls }
  | settled {g : Nat} {s : Submission} {ending : Ending} (hfound : r.submission? g = some s)
      (hpast : s.phase = .ended ending) (hunaware : s.caller = .waiting) :
    Effect r (.settle g) (r.change g fun s => { s with caller := .answered (r.told g ending) })
  | abandoned {g : Nat} {s : Submission} (hfound : r.submission? g = some s)
      (hunaware : s.caller = .waiting) :
    Effect r (.abandon g)
      (r.change g fun t => { t with caller := .cancelled, stopping := t.stopping || !s.phase.isEnded })

/-! ## Answers -/

theorem fail_takes {r : Runner} {g : Nat} {a : Reply} {e : ReportError} (h : a.error? = some e) :
    ∃ p slot calls, Takes r g a p slot ∧
      r.fail g e = { r.moveTo g p with slot := slot, calls := r.calls ++ calls } := by
  by_cases hcurrent : g = r.generation
  · refine ⟨_, _, [], .failed hcurrent h, ?_⟩
    have hisCurrent : r.isCurrent g = true := by simpa [Runner.isCurrent] using hcurrent
    simp [Runner.fail, hisCurrent, Runner.moveTo, Runner.change]
  · refine ⟨_, _, [], .failedLate hcurrent h, ?_⟩
    have hisCurrent : r.isCurrent g = false := by simpa [Runner.isCurrent] using hcurrent
    simp [Runner.fail, hisCurrent, Runner.moveTo, Runner.change]

/-- A current run that has noted a job may fail for good. -/
theorem fail_noted {r : Runner} {g : Nat} {d : JobDescriptor} {state : RunnerState} {e : ReportError}
    (hcurrent : g = r.generation) :
    ∃ p slot calls, Takes r g (.answered (.job d)) p slot ∧
      { r with slot := { r.slot with state := state, job := some d } }.fail g e =
        { r.moveTo g p with slot := slot, calls := r.calls ++ calls } := by
  refine ⟨.ended (.raised e), _, [], .refused hcurrent, ?_⟩
  simp [Runner.fail, Runner.isCurrent, hcurrent, Runner.moveTo, Runner.change]

/-- A current run that has noted a job either sleeps before the next poll or gives up. -/
theorem pollAgain_takes {r : Runner} {g : Nat} {d : JobDescriptor} {state : RunnerState} {job : String}
    {polls : Nat} {interval : Float} (hcurrent : g = r.generation)
    (hpending : state = .queued ∨ state = r.slot.state) :
    ∃ p slot calls, Takes r g (.answered (.job d)) p slot ∧
      { r with slot := { r.slot with state := state, job := some d } }.pollAgain g job polls interval =
        { r.moveTo g p with slot := slot, calls := r.calls ++ calls } := by
  unfold Runner.pollAgain
  split
  · exact ⟨_, _, [.sleep interval], .waits hcurrent hpending, rfl⟩
  · exact fail_noted hcurrent

theorem takeAnswer_takes (r : Runner) (g : Nat) (a : Reply) :
    ∃ p slot calls, Takes r g a p slot ∧
      r.takeAnswer g a = { r.moveTo g p with slot := slot, calls := r.calls ++ calls } := by
  cases a with
  | failed e => exact fail_takes rfl
  | broken message => exact fail_takes rfl
  | answered response =>
    by_cases hcurrent : g = r.generation
    · have hisCurrent : r.isCurrent g = true := by simpa [Runner.isCurrent] using hcurrent
      cases response with
      | result x =>
        refine ⟨_, _, [], .completed hcurrent, ?_⟩
        simp [Runner.takeAnswer, hisCurrent, Runner.complete, Runner.moveTo, Runner.change]
      | job d =>
        simp only [Runner.takeAnswer, hisCurrent, Bool.not_true, Bool.false_eq_true, if_false]
        split
        · exact fail_noted hcurrent
        · exact pollAgain_takes hcurrent (.inl rfl)
    · have hisCurrent : r.isCurrent g = false := by simpa [Runner.isCurrent] using hcurrent
      refine ⟨_, _, [], .discarded hcurrent, ?_⟩
      simp [Runner.takeAnswer, hisCurrent, Runner.discard, Runner.moveTo, Runner.change]

theorem takePoll_takes (r : Runner) (g : Nat) (job : String) (polls : Nat) (interval : Float)
    (a : Reply) :
    ∃ p slot calls, Takes r g a p slot ∧
      r.takePoll g job polls interval a =
        { r.moveTo g p with slot := slot, calls := r.calls ++ calls } := by
  cases a with
  | failed e => exact fail_takes rfl
  | broken message => exact fail_takes rfl
  | answered response =>
    by_cases hcurrent : g = r.generation
    · have hisCurrent : r.isCurrent g = true := by simpa [Runner.isCurrent] using hcurrent
      cases response with
      | result x =>
        refine ⟨_, _, [], .completed hcurrent, ?_⟩
        simp [Runner.takePoll, hisCurrent, Runner.complete, Runner.moveTo, Runner.change]
      | job d =>
        simp only [Runner.takePoll, hisCurrent, Bool.not_true, Bool.false_eq_true, if_false]
        split
        · exact fail_noted hcurrent
        · exact pollAgain_takes hcurrent (.inr rfl)
    · have hisCurrent : r.isCurrent g = false := by simpa [Runner.isCurrent] using hcurrent
      refine ⟨_, _, [], .discarded hcurrent, ?_⟩
      simp [Runner.takePoll, hisCurrent, Runner.discard, Runner.moveTo, Runner.change]

/-! ## Steps -/

theorem phase?_eq_some_iff {r : Runner} {g : Nat} {p : Phase} :
    r.phase? g = some p ↔ ∃ s, r.submission? g = some s ∧ s.phase = p := by
  simp [Runner.phase?]

theorem reply_effect (r : Runner) (g : Nat) (a : Reply) : Effect r (.reply g a) (r.reply g a) := by
  unfold Runner.reply
  split
  · rename_i hasks
    obtain ⟨s, hfound, hasking⟩ := phase?_eq_some_iff.mp hasks
    obtain ⟨p, slot, calls, htakes, h⟩ := takeAnswer_takes r g a
    rw [h]
    exact .replied hfound (by rw [hasking]; rfl) htakes
  · rename_i job polls interval hasks
    obtain ⟨s, hfound, hpolling⟩ := phase?_eq_some_iff.mp hasks
    obtain ⟨p, slot, calls, htakes, h⟩ := takePoll_takes r g job polls interval a
    rw [h]
    exact .replied hfound (by rw [hpolling]; rfl) htakes
  · exact .unchanged _

theorem launch_effect (r : Runner) (g : Nat) : Effect r (.launch g) (r.launch g) := by
  unfold Runner.launch
  split
  · rename_i c caller hfound
    exact @Effect.moved r (.launch g) g _ .asking [.runQuery c] (.inl rfl) hfound rfl
      (by intro x h; cases h)
  · exact .unchanged _

theorem wake_effect (r : Runner) (g : Nat) : Effect r (.wake g) (r.wake g) := by
  unfold Runner.wake
  split
  · rename_i job polls interval hsleeps
    obtain ⟨s, hfound, hsleeping⟩ := phase?_eq_some_iff.mp hsleeps
    have hrunning : s.phase.isEnded = false := by rw [hsleeping]; rfl
    split
    · exact @Effect.moved r (.wake g) g _ (.polling job polls interval) [.getJob job] (.inr (.inl rfl))
        hfound hrunning (by intro x h; cases h)
    · have h := @Effect.moved r (.wake g) g _ (.ended (.returned none)) [] (.inr (.inl rfl)) hfound
        hrunning (by intro x h; cases h)
      rwa [List.append_nil] at h
  · exact .unchanged _

theorem abort_effect (r : Runner) (g : Nat) : Effect r (.abort g) (r.abort g) := by
  unfold Runner.abort
  split
  · rename_i s hfound
    split
    · rename_i hstops
      have hrunning : s.phase.isEnded = false := by
        simp only [Bool.and_eq_true, Bool.not_eq_true'] at hstops
        exact hstops.2
      have h := @Effect.moved r (.abort g) g _ (.ended .cancelled) [] (.inr (.inr rfl)) hfound
        hrunning (by intro x h; cases h)
      rwa [List.append_nil] at h
    · exact .unchanged _
  · exact .unchanged _

theorem settle_effect (r : Runner) (g : Nat) : Effect r (.settle g) (r.settle g) := by
  unfold Runner.settle
  split
  · rename_i hfound
    exact .settled hfound rfl rfl
  · exact .unchanged _

theorem abandon_effect (r : Runner) (g : Nat) : Effect r (.abandon g) (r.abandon g) := by
  unfold Runner.abandon
  split
  · rename_i hfound
    exact .abandoned hfound rfl
  · exact .unchanged _

theorem step_submit_ok {r r' : Runner} {c : Config} {fields : List DerivedField}
    (h : r.submit c fields = .ok r') : r.step (.submit c fields) = r' := by
  simp only [Runner.step, h]

theorem step_submit_error {r : Runner} {c : Config} {fields : List DerivedField} {e : ReportError}
    (h : r.submit c fields = .error e) : r.step (.submit c fields) = r := by
  simp only [Runner.step, h]

theorem step_effect (r : Runner) (e : Event) : Effect r e (r.step e) := by
  cases e with
  | submit c fields =>
    cases h : r.submit c fields with
    | ok r' =>
      rw [step_submit_ok h]
      exact .submitted h
    | error e =>
      rw [step_submit_error h]
      exact .unchanged _
  | cancel => exact .cancelled
  | close => exact .closed
  | launch g => exact launch_effect r g
  | reply g a => exact reply_effect r g a
  | wake g => exact wake_effect r g
  | abort g => exact abort_effect r g
  | settle g => exact settle_effect r g
  | abandon g => exact abandon_effect r g

end Runner

end AdhocReport.Client
