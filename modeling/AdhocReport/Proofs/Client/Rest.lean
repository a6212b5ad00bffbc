import Mathlib.Data.List.Induction
import AdhocReport.Proofs.Client.Correspondence
set_option autoImplicit false

/-!
# Runners at rest

A slot waits as long as the current run has not ended, and whatever ends that run takes the slot out of
its wait: a result, an error, the next submission, a cancellation.  There is one exception.  The run whose
caller was cancelled stops without an answer and without a new generation, so that nothing is left which
would write the slot, and the slot waits for it although the runner is at rest.
-/

namespace AdhocReport.Client

open AdhocReport.Query

namespace Runner

/-- The submission whose answers reach the slot. -/
def current? (r : Runner) : Option Submission := r.submission? r.generation

/-- Every run has ended, and every caller has taken notice. -/
structure AtRest (r : Runner) : Prop where
  ended : ∀ s ∈ r.submissions, s.phase.isEnded = true
  noticed : ∀ s ∈ r.submissions, s.caller ≠ .waiting

/-- The current run was stopped, and its caller was cancelled. -/
def Deserted (r : Runner) : Prop :=
  ∃ s, r.current? = some s ∧ s.phase = .ended .cancelled ∧ s.caller = .cancelled

/-- On the way, the caller of what is now the current submission was cancelled while its run was in
flight. -/
def DesertedAlong (r : Runner) (es : List Event) : Prop :=
  ∃ earlier later, es = earlier ++ .abandon (r.run es).generation :: later ∧
    (r.run earlier).generation = (r.run es).generation ∧ (r.run earlier).inFlight = true

variable {r r' : Runner}

/-! ## Moves without an answer -/

/-- Where the run of a submission goes on a step that brings no answer: only a run that was asked to stop
does so. -/
inductive Moves (r : Runner) (s : Submission) : Event → Phase → Prop
  | begins : Moves r s (.launch s.generation) .asking
  | wakes {job : String} {polls : Nat} {interval : Float} :
    Moves r s (.wake s.generation) (.polling job polls interval)
  | discarded (hlate : s.generation ≠ r.generation) :
    Moves r s (.wake s.generation) (.ended (.returned none))
  | stops (hasked : s.stopping = true) : Moves r s (.abort s.generation) (.ended .cancelled)

/-- A step that begins, wakes or stops a run moves it, or leaves the runner as it is. -/
theorem step_moves {e : Event} {g : Nat} (hown : e = .launch g ∨ e = .wake g ∨ e = .abort g) :
    r.step e = r ∨ ∃ s p calls, r.submission? g = some s ∧ s.phase.isEnded = false ∧ Moves r s e p ∧
      r.step e = { r.moveTo g p with calls := calls } := by
  rcases hown with rfl | rfl | rfl
  · rw [step, launch]
    split
    · rename_i c caller hfound
      have hsame : _ = g := generation_of_submission? hfound
      exact .inr ⟨_, .asking, _, hfound, rfl, by rw [← hsame]; exact .begins, rfl⟩
    · exact .inl rfl
  · rw [step, wake]
    split
    · rename_i job polls interval hsleeps
      obtain ⟨s, hfound, hsleeping⟩ := phase?_eq_some_iff.mp hsleeps
      have hsame := generation_of_submission? hfound
      have hrunning : s.phase.isEnded = false := by rw [hsleeping]; rfl
      split
      · exact .inr ⟨s, _, _, hfound, hrunning, by rw [← hsame]; exact .wakes, rfl⟩
      · rename_i hlate
        have hlate : s.generation ≠ r.generation := by simpa [isCurrent, hsame] using hlate
        exact .inr ⟨s, _, _, hfound, hrunning, by rw [← hsame]; exact .discarded hlate, rfl⟩
    · exact .inl rfl
  · rw [step, abort]
    split
    · rename_i s hfound
      have hsame := generation_of_submission? hfound
      split
      · rename_i hasked
        rw [Bool.and_eq_true, Bool.not_eq_true'] at hasked
        exact .inr ⟨s, _, _, hfound, hasked.2, by rw [← hsame]; exact .stops hasked.1, rfl⟩
      · exact .inl rfl
    · exact .inl rfl

/-! ## What the slot waits for -/

/-- The slot waits exactly for the current run, and that run is asked to stop only when its caller is
cancelled; `deserted` says that this has happened. -/
structure Accounted (deserted : Prop) (r : Runner) : Prop where
  held : ∀ g, r.held = some g → g = r.generation
  waits : r.slot.Pending → r.held = some r.generation ∧
    ∃ s, r.current? = some s ∧ (s.phase.isEnded = false ∨ s.phase = .ended .cancelled)
  stopped : ∀ s, r.current? = some s → s.phase = .ended .cancelled → r.slot.Pending
  asked : ∀ s, r.current? = some s → s.stopping = true ∨ s.phase = .ended .cancelled →
    s.caller = .cancelled ∧ deserted

theorem Accounted.start (rhythm : Rhythm) : Accounted False (start rhythm) := by
  constructor
  · intro g hheld
    cases hheld
  · rintro (hpending | hpending) <;> cases hpending
  · intro s hfound
    cases hfound
  · intro s hfound
    cases hfound

theorem submit_held {c : Config} {fields : List DerivedField} (h : r.submit c fields = .ok r') :
    r'.held = some r'.generation := by
  unfold submit at h
  cases hfresh : DerivedField.ensureFresh fields c.models with
  | error e =>
    rw [hfresh] at h
    cases h
  | ok u =>
    rw [hfresh] at h
    cases h
    rfl

theorem letGo_held (r : Runner) : r.letGo.held = none := by
  unfold letGo
  split
  · assumption
  · rfl

theorem cancel_held (r : Runner) : r.cancel.held = none := by
  rw [cancel_eq]
  exact letGo_held _

/-- No submission has the generation that a turn of the runner leads to. -/
theorem Ordered.submission?_next (hordered : Ordered r) : r.submission? (r.generation + 1) = none := by
  cases hfound : r.submission? (r.generation + 1) with
  | none => rfl
  | some s =>
    have hissued := hordered.issued s (List.mem_of_find?_eq_some hfound)
    rw [generation_of_submission? hfound] at hissued
    omega

/-- An accepted submission is the current one, and its run is new. -/
theorem current?_of_submit {c : Config} {fields : List DerivedField} (hordered : Ordered r)
    (h : r.submit c fields = .ok r') :
    r'.current? = some ⟨r.generation + 1, c, .created, false, .waiting⟩ := by
  obtain ⟨hgeneration, -, asked, hlist⟩ := submit_eq_ok h
  have hearlier : (r.submissions.map fun s => { s with stopping := asked s }).find?
      (fun s => s.generation == r.generation + 1) = none := by
    rw [List.find?_map, Option.map_eq_none_iff]
    exact hordered.submission?_next
  rw [current?, submission?, hlist, hgeneration, List.find?_append, hearlier]
  simp

/-- After a cancellation there is no current submission. -/
theorem current?_of_cancel (hordered : Ordered r) : r.cancel.current? = none := by
  obtain ⟨asked, hlist⟩ := cancel_submissions r
  rw [current?, cancel_generation, submission?_of_map hlist fun s => rfl, hordered.submission?_next]
  rfl

theorem Accounted.submit {c : Config} {fields : List DerivedField} (hordered : Ordered r)
    (h : r.submit c fields = .ok r') (deserted : Prop) : Accounted deserted r' := by
  have hcurrent := current?_of_submit hordered h
  constructor
  · intro g hheld
    rw [submit_held h] at hheld
    exact (Option.some.inj hheld).symm
  · exact fun _ => ⟨submit_held h, _, hcurrent, .inl rfl⟩
  · intro s hfound hstopped
    cases hcurrent.symm.trans hfound
    cases hstopped
  · intro s hfound hasked
    cases hcurrent.symm.trans hfound
    rcases hasked with hasked | hasked <;> cases hasked

/-- A cancelled slot does not wait, and no run is left that could be current. -/
theorem Accounted.cancel (hordered : Ordered r) (deserted : Prop) : Accounted deserted r.cancel := by
  have hcurrent := current?_of_cancel hordered
  constructor
  · intro g hheld
    rw [cancel_held] at hheld
    cases hheld
  · intro hpending
    rw [cancel_eq] at hpending
    unfold Slot.Pending at hpending
    dsimp only at hpending
    split at hpending
    · rcases hpending with hpending | hpending <;> cases hpending
    · rename_i hfree
      exact absurd hpending hfree
  · intro s hfound
    cases hcurrent.symm.trans hfound
  · intro s hfound
    cases hcurrent.symm.trans hfound

/-! ## Steps within a generation -/

theorem current?_of_map {f : Submission → Submission} (hlist : r'.submissions = r.submissions.map f)
    (hkeeps : ∀ s, (f s).generation = s.generation) (hgeneration : r'.generation = r.generation) :
    r'.current? = r.current?.map f := by
  rw [current?, hgeneration, submission?_of_map hlist hkeeps]
  rfl

variable {deserted deserted' : Prop}

/-- A step that leaves slot and generation changes the account only by what it makes of the current
submission. -/
theorem Accounted.of_map (h : Accounted deserted r) {f : Submission → Submission}
    (hlist : r'.submissions = r.submissions.map f) (hkeeps : ∀ s, (f s).generation = s.generation)
    (hgeneration : r'.generation = r.generation) (hheld : r'.held = r.held) (hslot : r'.slot = r.slot)
    (hphase : ∀ s, r.current? = some s → r.slot.Pending →
      s.phase.isEnded = false ∨ s.phase = .ended .cancelled →
      (f s).phase.isEnded = false ∨ (f s).phase = .ended .cancelled)
    (hstopped : ∀ s, r.current? = some s → (f s).phase = .ended .cancelled → r.slot.Pending)
    (hasked : ∀ s, r.current? = some s → (f s).stopping = true ∨ (f s).phase = .ended .cancelled →
      (f s).caller = .cancelled ∧ deserted') : Accounted deserted' r' := by
  have hcurrent := current?_of_map hlist hkeeps hgeneration
  constructor
  · rw [hheld, hgeneration]
    exact h.held
  · intro hpending
    rw [hslot] at hpending
    obtain ⟨hholds, s, hfound, hruns⟩ := h.waits hpending
    rw [hheld, hgeneration, hcurrent, hfound]
    exact ⟨hholds, f s, rfl, hphase s hfound hpending hruns⟩
  · intro t hfound hpast
    obtain ⟨s, hbefore, rfl⟩ := Option.map_eq_some_iff.mp (hcurrent.symm.trans hfound)
    rw [hslot]
    exact hstopped s hbefore hpast
  · intro t hfound hnoted
    obtain ⟨s, hbefore, rfl⟩ := Option.map_eq_some_iff.mp (hcurrent.symm.trans hfound)
    exact hasked s hbefore hnoted

theorem Accounted.mono (h : Accounted deserted r) (hknown : deserted → deserted') : Accounted deserted' r :=
  ⟨h.held, h.waits, h.stopped, fun s hfound hasked => (h.asked s hfound hasked).imp_right hknown⟩

/-- The held run is in flight exactly when the current submission has one that has not ended. -/
theorem Accounted.inFlight_iff (h : Accounted deserted r) (hcorresponds : Corresponds r) :
    r.inFlight = true ↔ ∃ s, r.current? = some s ∧ s.phase.isEnded = false := by
  constructor
  · intro hflies
    obtain ⟨s, hfound, hrunning⟩ := (Option.any_eq_true _ _).mp hflies
    obtain ⟨g, hheld, hfound⟩ := Option.bind_eq_some_iff.mp hfound
    rw [h.held g hheld] at hfound
    exact ⟨s, hfound, by simpa using hrunning⟩
  · rintro ⟨s, hfound, hrunning⟩
    obtain ⟨hheld, -⟩ := h.waits (hcorresponds.running s hfound hrunning)
    have hfound : r.submission? r.generation = some s := hfound
    rw [inFlight, hheld, Option.bind_some, hfound, Option.any_some, hrunning]
    rfl

/-- What moving the run of a generation makes of the current submission. -/
theorem moved_current {g : Nat} {s t : Submission} {p : Phase} (hfound : r.submission? g = some s)
    (hcurrent : r.current? = some t) :
    (g = r.generation ∧ t = s ∧
      (if t.generation = g then { t with phase := p, stopping := false } else t) =
        { s with phase := p, stopping := false }) ∨
    (g ≠ r.generation ∧ (if t.generation = g then { t with phase := p, stopping := false } else t) = t) := by
  have hgeneration : t.generation = r.generation := generation_of_submission? hcurrent
  by_cases hsame : g = r.generation
  · subst hsame
    cases hfound.symm.trans hcurrent
    exact .inl ⟨rfl, rfl, if_pos hgeneration⟩
  · refine .inr ⟨hsame, if_neg fun hequal => hsame ?_⟩
    rw [← hequal, hgeneration]

/-- A move that leaves the slot: of the moves that end the current run, only a stop does so, and only the
cancelled caller asked for it. -/
theorem Accounted.moved (h : Accounted deserted r) (hcorresponds : Corresponds r) {e : Event} {g : Nat}
    {s : Submission} {p : Phase} (hfound : r.submission? g = some s) (hrunning : s.phase.isEnded = false)
    (hmoves : Moves r s e p) (calls : List Call) :
    Accounted deserted { r.moveTo g p with calls := calls } := by
  have hpending (hcurrent : g = r.generation) : r.slot.Pending := hcorresponds.running s (hcurrent ▸ hfound) hrunning
  have hgeneration := generation_of_submission? hfound
  refine h.of_map rfl (fun t => by split <;> rfl) rfl rfl rfl ?_ ?_ ?_
  · intro t hcurrent _ hruns
    rcases moved_current (p := p) hfound hcurrent with ⟨hsame, rfl, hafter⟩ | ⟨-, hafter⟩
    · rw [hafter]
      cases hmoves with
      | begins => exact .inl rfl
      | wakes => exact .inl rfl
      | discarded hlate => exact absurd (hgeneration.trans hsame) hlate
      | stops hasked => exact .inr rfl
    · rw [hafter]
      exact hruns
  · intro t hcurrent hpast
    rcases moved_current (p := p) hfound hcurrent with ⟨hsame, rfl, -⟩ | ⟨-, hafter⟩
    · exact hpending hsame
    · rw [hafter] at hpast
      exact h.stopped t hcurrent hpast
  · intro t hcurrent hnoted
    rcases moved_current (p := p) hfound hcurrent with ⟨hsame, rfl, hafter⟩ | ⟨-, hafter⟩
    · rw [hafter] at hnoted ⊢
      cases hmoves with
      | stops hasked => exact h.asked t hcurrent (.inl hasked)
      | begins => rcases hnoted with hnoted | hnoted <;> cases hnoted
      | wakes => rcases hnoted with hnoted | hnoted <;> cases hnoted
      | discarded hlate => rcases hnoted with hnoted | hnoted <;> cases hnoted
    · rw [hafter] at hnoted ⊢
      exact h.asked t hcurrent hnoted

/-- What an answer leaves: a late one changes nothing of the current submission, and one that ends the
current run takes the slot out of its wait. -/
theorem Accounted.takes (h : Accounted deserted r) (hcorresponds : Corresponds r) {g : Nat} {a : Reply}
    {s : Submission} {p : Phase} {slot : Slot} (hfound : r.submission? g = some s)
    (hrunning : s.phase.isEnded = false) (htakes : Takes r g a p slot) (calls : List Call) :
    Accounted deserted { r.moveTo g p with slot := slot, calls := calls } := by
  have hlate (hother : g ≠ r.generation) : Accounted deserted { r.moveTo g p with slot := r.slot, calls := calls } := by
    have hsame (t : Submission) (hcurrent : r.current? = some t) :
        (if t.generation = g then { t with phase := p, stopping := false } else t) = t := by
      rcases moved_current (p := p) hfound hcurrent with ⟨hsame, -⟩ | ⟨-, hafter⟩
      · exact absurd hsame hother
      · exact hafter
    refine h.of_map rfl (fun t => by split <;> rfl) rfl rfl rfl ?_ ?_ ?_
    · intro t hcurrent _ hruns
      rw [hsame t hcurrent]
      exact hruns
    · intro t hcurrent hpast
      rw [hsame t hcurrent] at hpast
      exact h.stopped t hcurrent hpast
    · intro t hcurrent hnoted
      rw [hsame t hcurrent] at hnoted ⊢
      exact h.asked t hcurrent hnoted
  have hmoved (hcurrent : g = r.generation) :
      ({ r.moveTo g p with slot := slot, calls := calls } : Runner).current? =
        some { s with phase := p, stopping := false } := by
    have hafter : (r.moveTo g p).submission? g = some { s with phase := p, stopping := false } := by
      rw [moveTo, submission?_change ?_ hfound, if_pos rfl]
      exact fun t => rfl
    exact hcurrent ▸ hafter
  -- the current run has its phase from the answer, and is not asked to stop any more
  have hsettled (hcurrent : g = r.generation) (hfree : p ≠ .ended .cancelled)
      (hwaits : slot.Pending → p.isEnded = false) :
      Accounted deserted { r.moveTo g p with slot := slot, calls := calls } := by
    refine ⟨h.held, fun hpending => ⟨?_, _, hmoved hcurrent, .inl (hwaits hpending)⟩, ?_, ?_⟩
    · exact (h.waits (hcorresponds.running s (hcurrent ▸ hfound) hrunning)).1
    · intro t hafter hpast
      cases (hmoved hcurrent).symm.trans hafter
      exact absurd hpast hfree
    · intro t hafter hnoted
      cases (hmoved hcurrent).symm.trans hafter
      rcases hnoted with hnoted | hnoted
      · cases hnoted
      · exact absurd hnoted hfree
  cases htakes with
  | discarded hother => exact hlate hother
  | failedLate hother hwrong => exact hlate hother
  | failed hcurrent hwrong =>
    refine hsettled hcurrent (fun hsame => by cases hsame) ?_
    rintro (hpending | hpending) <;> cases hpending
  | completed hcurrent =>
    refine hsettled hcurrent (fun hsame => by cases hsame) ?_
    rintro (hpending | hpending) <;> cases hpending
  | refused hcurrent =>
    refine hsettled hcurrent (fun hsame => by cases hsame) ?_
    rintro (hpending | hpending) <;> cases hpending
  | waits hcurrent hpending => exact hsettled hcurrent (fun hsame => by cases hsame) fun _ => rfl

/-- A caller that still waits was not cancelled, so its run was not asked to stop. -/
theorem Accounted.unasked (h : Accounted deserted r) {s : Submission} (hcurrent : r.current? = some s)
    (hunaware : s.caller = .waiting) : ¬(s.stopping = true ∨ s.phase = .ended .cancelled) := by
  intro hasked
  have hcancelled := (h.asked s hcurrent hasked).1
  rw [hunaware] at hcancelled
  cases hcancelled

/-- A caller that takes notice changes nothing of its run. -/
theorem Accounted.settled (h : Accounted deserted r) {g : Nat} {s : Submission}
    (hfound : r.submission? g = some s) (hunaware : s.caller = .waiting) (c : Caller) :
    Accounted deserted (r.change g fun s => { s with caller := c }) := by
  refine h.of_map rfl (fun t => by split <;> rfl) rfl rfl rfl ?_ ?_ ?_
  · intro t hcurrent _ hruns
    split <;> exact hruns
  · intro t hcurrent hpast
    refine h.stopped t hcurrent ?_
    split at hpast <;> exact hpast
  · intro t hcurrent hnoted
    split at hnoted
    · rename_i hsame
      have hgeneration : t.generation = r.generation := generation_of_submission? hcurrent
      rw [← hsame, hgeneration] at hfound
      cases (show r.current? = some s from hfound).symm.trans hcurrent
      exact absurd (show s.stopping = true ∨ s.phase = .ended .cancelled from hnoted) (h.unasked hcurrent hunaware)
    · rename_i hother
      rw [if_neg hother]
      exact h.asked t hcurrent hnoted

/-- A cancelled caller asks its run to stop, if that has not ended. -/
theorem Accounted.abandoned (h : Accounted deserted r) (hcorresponds : Corresponds r) {g : Nat} {s : Submission}
    (hfound : r.submission? g = some s) (hunaware : s.caller = .waiting) (hkept : deserted → deserted')
    (hbegun : g = r.generation → r.inFlight = true → deserted') :
    Accounted deserted'
      (r.change g fun t => { t with caller := .cancelled, stopping := t.stopping || !s.phase.isEnded }) := by
  refine h.of_map rfl (fun t => by split <;> rfl) rfl rfl rfl ?_ ?_ ?_
  · intro t hcurrent _ hruns
    split <;> exact hruns
  · intro t hcurrent hpast
    refine h.stopped t hcurrent ?_
    split at hpast <;> exact hpast
  · intro t hcurrent hnoted
    split at hnoted
    · rename_i hsame
      have hgeneration : t.generation = r.generation := generation_of_submission? hcurrent
      rw [← hsame, hgeneration] at hfound
      have hfound : r.current? = some s := hfound
      cases hfound.symm.trans hcurrent
      rw [if_pos hsame]
      refine ⟨rfl, hbegun (hsame.symm.trans hgeneration) ((h.inFlight_iff hcorresponds).mpr ⟨s, hfound, ?_⟩)⟩
      rw [Bool.or_eq_true, Bool.not_eq_true', or_right_comm] at hnoted
      exact hnoted.resolve_left (h.unasked hcurrent hunaware)
    · rename_i hother
      rw [if_neg hother]
      exact (h.asked t hcurrent hnoted).imp_right hkept

/-! ## Every step -/

/-- Every step keeps the account: the caller of the current submission is cancelled before it or by it. -/
theorem Accounted.step (h : Accounted deserted r) (hordered : Ordered r) (hcorresponds : Corresponds r)
    (e : Event) (hkept : (r.step e).generation = r.generation → deserted → deserted')
    (hbegun : e = .abandon r.generation → r.inFlight = true → deserted') : Accounted deserted' (r.step e) := by
  have hmoved {g : Nat} (hown : e = .launch g ∨ e = .wake g ∨ e = .abort g) : Accounted deserted' (r.step e) := by
    rcases step_moves hown with hsame | ⟨s, p, calls, hfound, hrunning, hmoves, hsame⟩
    · rw [hsame] at hkept ⊢
      exact h.mono (hkept rfl)
    · rw [hsame] at hkept ⊢
      exact (h.moved hcorresponds hfound hrunning hmoves calls).mono (hkept rfl)
  have heffect := step_effect r e
  cases e with
  | submit c fields =>
    cases haccepted : r.submit c fields with
    | ok r' =>
      rw [step_submit_ok haccepted]
      exact .submit hordered haccepted _
    | error e =>
      rw [step_submit_error haccepted] at hkept ⊢
      exact h.mono (hkept rfl)
  | cancel => exact .cancel hordered _
  | close => exact .cancel hordered _
  | launch g => exact hmoved (.inl rfl)
  | wake g => exact hmoved (.inr (.inl rfl))
  | abort g => exact hmoved (.inr (.inr rfl))
  | reply g a =>
    generalize r.step (.reply g a) = r' at heffect hkept ⊢
    cases heffect with
    | unchanged => exact h.mono (hkept rfl)
    | moved hown => rcases hown with hown | hown | hown <;> cases hown
    | replied hfound hrunning htakes => exact (h.takes hcorresponds hfound hrunning htakes _).mono (hkept rfl)
  | settle g =>
    generalize r.step (.settle g) = r' at heffect hkept ⊢
    cases heffect with
    | unchanged => exact h.mono (hkept rfl)
    | moved hown => rcases hown with hown | hown | hown <;> cases hown
    | settled hfound hpast hunaware => exact (h.settled hfound hunaware _).mono (hkept rfl)
  | abandon g =>
    generalize r.step (.abandon g) = r' at heffect hkept ⊢
    cases heffect with
    | unchanged => exact h.mono (hkept rfl)
    | moved hown => rcases hown with hown | hown | hown <;> cases hown
    | abandoned hfound hunaware =>
      exact h.abandoned hcorresponds hfound hunaware (hkept rfl) fun hsame => hbegun (by rw [hsame])

theorem run_concat (r : Runner) (es : List Event) (e : Event) : r.run (es ++ [e]) = (r.run es).step e :=
  run_append r es [e]

/-- A step within a generation keeps what happened to the caller on the way. -/
theorem DesertedAlong.concat {es : List Event} (h : DesertedAlong r es) {e : Event}
    (hgeneration : ((r.run es).step e).generation = (r.run es).generation) : DesertedAlong r (es ++ [e]) := by
  obtain ⟨earlier, later, hsplit, hsame, hflies⟩ := h
  refine ⟨earlier, later ++ [e], ?_, ?_, hflies⟩
  · rw [run_concat, hgeneration, ← List.cons_append, ← List.append_assoc, ← hsplit]
  · rw [run_concat, hgeneration]
    exact hsame

theorem desertedAlong_abandon {es : List Event} (hflies : (r.run es).inFlight = true) :
    DesertedAlong r (es ++ [.abandon (r.run es).generation]) := by
  have hgeneration : (r.run (es ++ [.abandon (r.run es).generation])).generation = (r.run es).generation := by
    rw [run_concat]
    exact (step_effect _ _).generation_eq (by simp)
  refine ⟨es, [], ?_, ?_, hflies⟩
  · rw [hgeneration]
  · rw [hgeneration]

theorem Accounted.run (rhythm : Rhythm) (es : List Event) :
    Accounted (DesertedAlong (Runner.start rhythm) es) ((Runner.start rhythm).run es) := by
  induction es using List.reverseRecOn with
  | nil => exact (Accounted.start rhythm).mono False.elim
  | append_singleton es e ih =>
    rw [run_concat]
    refine ih.step (.run rhythm es) (.run rhythm es) e (fun hgeneration halong => halong.concat hgeneration) ?_
    rintro rfl hflies
    exact desertedAlong_abandon hflies

/-! ## Every reachable state -/

theorem AtRest.inFlight_eq (hrest : AtRest r) : r.inFlight = false := by
  rw [← Bool.not_eq_true]
  intro hflies
  obtain ⟨s, hfound, hrunning⟩ := (Option.any_eq_true _ _).mp hflies
  obtain ⟨g, -, hfound⟩ := Option.bind_eq_some_iff.mp hfound
  rw [hrest.ended s (List.mem_of_find?_eq_some hfound)] at hrunning
  cases hrunning

/-- Whatever the steps and their order: the slot waits exactly while the current run is in flight, or when
that run was stopped because its caller was cancelled.  So a runner at rest looks busy only after its
current submission was deserted, for which its caller was cancelled while the run was in flight. -/
theorem slot_waits_iff (rhythm : Rhythm) (es : List Event) :
    let r := (start rhythm).run es
    (r.slot.Pending ↔ r.inFlight = true ∨ r.Deserted) ∧
    (r.AtRest → (r.slot.Pending ↔ r.Deserted)) ∧
    (r.Deserted → DesertedAlong (start rhythm) es) := by
  intro r
  have haccount : Accounted (DesertedAlong (start rhythm) es) r := Accounted.run rhythm es
  have hcorresponds : Corresponds r := Corresponds.run rhythm es
  have hwaits : r.slot.Pending ↔ r.inFlight = true ∨ r.Deserted := by
    constructor
    · intro hpending
      obtain ⟨-, s, hfound, hrunning | hpast⟩ := haccount.waits hpending
      · exact .inl ((haccount.inFlight_iff hcorresponds).mpr ⟨s, hfound, hrunning⟩)
      · exact .inr ⟨s, hfound, hpast, (haccount.asked s hfound (.inr hpast)).1⟩
    · rintro (hflies | ⟨s, hfound, hpast, -⟩)
      · obtain ⟨s, hfound, hrunning⟩ := (haccount.inFlight_iff hcorresponds).mp hflies
        exact hcorresponds.running s hfound hrunning
      · exact haccount.stopped s hfound hpast
  refine ⟨hwaits, fun hrest => ?_, ?_⟩
  · rw [hwaits, hrest.inFlight_eq]
    simp
  · rintro ⟨s, hfound, hpast, -⟩
    exact (haccount.asked s hfound (.inr hpast)).2

/-- A submission whose caller is cancelled while it waits for the answer: its run stops, the runner is at
rest with nothing in flight, and the slot is still that of a query which was submitted. -/
theorem deserted_still_submitted :
    let c : Config := ⟨["user"], [], [], [], [], [], [], 100, .standard⟩
    let r := (start (.ofSettings .standard)).run [.submit c [], .launch 1, .abandon 1, .abort 1]
    r.AtRest ∧ r.inFlight = false ∧ r.slot.state = .submitted := by
  intro c r
  have honly : r.submissions = [⟨1, c, .ended .cancelled, false, .cancelled⟩] := rfl
  refine ⟨⟨?_, ?_⟩, rfl, rfl⟩
  · rw [honly]
    simp [Phase.isEnded]
  · rw [honly]
    simp

end Runner

end AdhocReport.Client
