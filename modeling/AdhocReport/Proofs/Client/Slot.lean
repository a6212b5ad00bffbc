import AdhocReport.Proofs.Client.Effect
set_option autoImplicit false

/-!
# Who writes the slot

Answers of superseded runs arrive at any time, in any order, and whether or not the run was asked to
stop.  Generations are given out in increasing order, so the current one can only be that of the
latest submission; with that, the slot holds nothing but what the latest submission came to, and the
caller of a superseded submission hears of nothing.
-/

namespace AdhocReport.Client

open AdhocReport.Query

/-- The steps that may write the slot of a runner. -/
def Event.MayWrite (r : Runner) : Event → Prop
  | .submit c fields => ∃ r', r.submit c fields = .ok r'
  | .cancel => True
  | .close => True
  | .reply g _ => g = r.generation
  | _ => False

namespace Runner

/-- The submission that came last. -/
def latest? (r : Runner) : Option Submission := r.submissions.getLast?

/-- What holds at the start and is kept by every effect holds after every run. -/
theorem run_invariant {P : List Event → Runner → Prop} {r : Runner} (hbefore : P [] r)
    (hkept : ∀ {es : List Event} {s s' : Runner} {e : Event}, P es s → Effect s e s' → P (es ++ [e]) s')
    (es : List Event) : P es (r.run es) := by
  have hextended : ∀ (rest done : List Event) (s : Runner), P done s → P (done ++ rest) (s.run rest) := by
    intro rest
    induction rest with
    | nil =>
      intro done s h
      rw [List.append_nil]
      exact h
    | cons e rest ih =>
      intro done s h
      have hnext := ih (done ++ [e]) (s.step e) (hkept h (step_effect s e))
      rw [List.append_assoc] at hnext
      exact hnext
  exact hextended es [] r hbefore

theorem run_append (r : Runner) (es es' : List Event) : r.run (es ++ es') = (r.run es).run es' :=
  List.foldl_append

/-! ## Submissions -/

@[simp] theorem letGo_generation (r : Runner) : r.letGo.generation = r.generation := by
  unfold Runner.letGo
  split <;> rfl

@[simp] theorem letGo_slot (r : Runner) : r.letGo.slot = r.slot := by
  unfold Runner.letGo
  split <;> rfl

/-- Letting go asks some runs to stop and changes nothing else of them. -/
theorem letGo_submissions (r : Runner) : ∃ asked : Submission → Bool,
    r.letGo.submissions = r.submissions.map fun s => { s with stopping := asked s } := by
  unfold Runner.letGo
  split
  · exact ⟨fun s => s.stopping, by simp⟩
  · rename_i g _
    refine ⟨fun s => if s.generation = g ∧ s.phase.isEnded = false then true else s.stopping, ?_⟩
    simp only [Runner.change]
    refine List.map_congr_left fun s _ => ?_
    obtain ⟨generation, c, p, stopping, caller⟩ := s
    by_cases hsame : generation = g
    · cases hpast : p.isEnded <;> simp [hsame]
    · simp [hsame]

/-- A cancellation lets go of the run in flight; of the slot it changes the state at most. -/
theorem cancel_eq (r : Runner) : r.cancel =
    { { r with generation := r.generation + 1 }.letGo with
      slot := { r.slot with
        state := if r.slot.state = .submitted ∨ r.slot.state = .queued then .cancelled
          else r.slot.state } } := by
  have hslot : { r with generation := r.generation + 1 }.letGo.slot = r.slot := letGo_slot _
  simp only [Runner.cancel, hslot, Bool.or_eq_true, beq_iff_eq]
  generalize { r with generation := r.generation + 1 }.letGo = free at hslot ⊢
  split
  · rfl
  · rw [← hslot]

theorem cancel_submissions (r : Runner) : ∃ asked : Submission → Bool,
    r.cancel.submissions = r.submissions.map fun s => { s with stopping := asked s } := by
  rw [cancel_eq]
  exact letGo_submissions { r with generation := r.generation + 1 }

@[simp] theorem cancel_generation (r : Runner) : r.cancel.generation = r.generation + 1 := by
  rw [cancel_eq]
  exact letGo_generation _

@[simp] theorem cancel_result (r : Runner) : r.cancel.slot.result = r.slot.result := by
  rw [cancel_eq]

theorem submit_eq_ok {r r' : Runner} {c : Config} {fields : List DerivedField}
    (h : r.submit c fields = .ok r') :
    r'.generation = r.generation + 1 ∧ r'.slot = ⟨.submitted, none, none, none⟩ ∧
      ∃ asked : Submission → Bool, r'.submissions =
        (r.submissions.map fun s => { s with stopping := asked s }) ++
          [⟨r.generation + 1, c, .created, false, .waiting⟩] := by
  obtain ⟨asked, hletGo⟩ := letGo_submissions r
  unfold Runner.submit at h
  cases hfresh : DerivedField.ensureFresh fields c.models with
  | error e =>
    rw [hfresh] at h
    cases h
  | ok u =>
    rw [hfresh] at h
    cases h
    refine ⟨rfl, rfl, asked, ?_⟩
    simp only [hletGo]

theorem submission?_of_map {r r' : Runner} {f : Submission → Submission}
    (h : r'.submissions = r.submissions.map f) (hkeeps : ∀ s, (f s).generation = s.generation) (g : Nat) :
    r'.submission? g = (r.submission? g).map f := by
  simp only [Runner.submission?, h, List.find?_map, Function.comp_def, hkeeps]

theorem generation_of_submission? {r : Runner} {g : Nat} {s : Submission}
    (h : r.submission? g = some s) : s.generation = g := by
  have hsame := List.find?_some h
  simpa using hsame

theorem submission?_change {r : Runner} {g h : Nat} {f : Submission → Submission} {s : Submission}
    (hkeeps : ∀ s, (f s).generation = s.generation) (hfound : r.submission? g = some s) :
    (r.change h f).submission? g = some (if g = h then f s else s) := by
  have hsame : ∀ s : Submission, (if s.generation = h then f s else s).generation = s.generation := by
    intro s
    split
    · exact hkeeps s
    · rfl
  rw [submission?_of_map rfl hsame, hfound, Option.map_some, generation_of_submission? hfound]

theorem submission?_of_append {r r' : Runner} {f : Submission → Submission} {added : List Submission}
    {g : Nat} {s : Submission} (h : r'.submissions = r.submissions.map f ++ added)
    (hkeeps : ∀ s, (f s).generation = s.generation) (hfound : r.submission? g = some s) :
    r'.submission? g = some (f s) := by
  have hkept : (r.submissions.map f).find? (fun t => t.generation == g) = some (f s) := by
    simp only [List.find?_map, Function.comp_def, hkeeps]
    exact congrArg (Option.map f) hfound
  rw [Runner.submission?, h, List.find?_append, hkept]
  rfl

/-- Generations are given out in increasing order. -/
structure Ordered (r : Runner) : Prop where
  increasing : r.submissions.Pairwise fun s t => s.generation < t.generation
  issued : ∀ s ∈ r.submissions, s.generation ≤ r.generation

/-- A step changes submissions in place, without their generations, or it adds one with the next
generation. -/
theorem Effect.submissions {r r' : Runner} {e : Event} (h : Effect r e r') :
    ∃ (f : Submission → Submission) (added : List Submission),
      r'.submissions = r.submissions.map f ++ added ∧ (∀ s, (f s).generation = s.generation) ∧
      r.generation ≤ r'.generation ∧
      (added = [] ∨ ∃ s, added = [s] ∧ s.generation = r.generation + 1 ∧
        r'.generation = r.generation + 1) := by
  cases h with
  | unchanged => exact ⟨id, [], by simp, fun s => rfl, Nat.le_refl _, .inl rfl⟩
  | submitted haccepted =>
    obtain ⟨hgeneration, -, asked, hlist⟩ := submit_eq_ok haccepted
    exact ⟨_, _, hlist, fun s => rfl, by omega, .inr ⟨_, rfl, rfl, hgeneration⟩⟩
  | cancelled =>
    obtain ⟨asked, hlist⟩ := cancel_submissions r
    exact ⟨fun s => { s with stopping := asked s }, [], by rw [hlist, List.append_nil], fun s => rfl,
      by simp, .inl rfl⟩
  | closed =>
    obtain ⟨asked, hlist⟩ := cancel_submissions r
    exact ⟨fun s => { s with stopping := asked s }, [], by rw [hlist, List.append_nil], fun s => rfl,
      by simp, .inl rfl⟩
  | moved =>
    exact ⟨_, [], (List.append_nil _).symm, fun s => by split <;> rfl, Nat.le_refl _, .inl rfl⟩
  | replied =>
    exact ⟨_, [], (List.append_nil _).symm, fun s => by split <;> rfl, Nat.le_refl _, .inl rfl⟩
  | settled =>
    exact ⟨_, [], (List.append_nil _).symm, fun s => by split <;> rfl, Nat.le_refl _, .inl rfl⟩
  | abandoned =>
    exact ⟨_, [], (List.append_nil _).symm, fun s => by split <;> rfl, Nat.le_refl _, .inl rfl⟩

theorem Ordered.start (rhythm : Rhythm) : Ordered (start rhythm) := by
  constructor
  · exact List.Pairwise.nil
  · intro s h
    cases h

theorem Ordered.effect {r r' : Runner} {e : Event} (hordered : Ordered r) (h : Effect r e r') :
    Ordered r' := by
  obtain ⟨f, added, hlist, hkeeps, hgrows, hnew⟩ := h.submissions
  have hold : ∀ s ∈ r.submissions.map f, s.generation ≤ r.generation := by
    intro s hmember
    obtain ⟨t, hpresent, rfl⟩ := List.mem_map.mp hmember
    rw [hkeeps]
    exact hordered.issued t hpresent
  have hincreasing : (r.submissions.map f).Pairwise fun s t => s.generation < t.generation := by
    simpa only [List.pairwise_map, hkeeps] using hordered.increasing
  rcases hnew with rfl | ⟨s, rfl, hnext, hcurrent⟩
  · rw [List.append_nil] at hlist
    exact ⟨hlist ▸ hincreasing, fun s hmember => Nat.le_trans (hold s (hlist ▸ hmember)) hgrows⟩
  · constructor
    · rw [hlist, List.pairwise_append]
      refine ⟨hincreasing, List.pairwise_singleton _ _, ?_⟩
      intro t hpresent u hsingle
      have := hold t hpresent
      rw [List.mem_singleton.mp hsingle]
      omega
    · intro t hmember
      rw [hlist, List.mem_append, List.mem_singleton] at hmember
      rcases hmember with hpresent | rfl
      · have := hold t hpresent
        omega
      · omega

theorem Ordered.run (rhythm : Rhythm) (es : List Event) : Ordered ((Runner.start rhythm).run es) :=
  @run_invariant (fun _ => Ordered) _ (.start rhythm) (fun hordered h => hordered.effect h) es

/-- The submission that has the generation of the latest one is the latest one. -/
theorem Ordered.eq_latest {r : Runner} {g : Nat} {s t : Submission} (hordered : Ordered r)
    (hfound : r.submission? g = some s) (hlast : r.latest? = some t) (habove : g ≥ t.generation) :
    s = t := by
  have hmember : s ∈ r.submissions := List.mem_of_find?_eq_some hfound
  have hsame := generation_of_submission? hfound
  obtain ⟨before, hlist⟩ := List.getLast?_eq_some_iff.mp hlast
  have hincreasing := hordered.increasing
  rw [hlist, List.pairwise_append] at hincreasing
  rw [hlist, List.mem_append, List.mem_singleton] at hmember
  rcases hmember with hearlier | rfl
  · have := hincreasing.2.2 s hearlier t (List.mem_singleton.mpr rfl)
    omega
  · rfl

/-- The current submission is the latest one. -/
theorem Ordered.latest_of_current {r : Runner} {s : Submission} (hordered : Ordered r)
    (hfound : r.submission? r.generation = some s) : r.latest? = some s := by
  cases hlast : r.latest? with
  | none =>
    have hmember : s ∈ r.submissions := List.mem_of_find?_eq_some hfound
    rw [List.getLast?_eq_none_iff.mp hlast] at hmember
    cases hmember
  | some t =>
    have hissued := hordered.issued t (List.mem_of_getLast? hlast)
    rw [hordered.eq_latest hfound hlast hissued]

/-! ## The slot -/

theorem Takes.slot_eq_or_current {r : Runner} {g : Nat} {a : Reply} {p : Phase} {slot : Slot}
    (h : Takes r g a p slot) : slot = r.slot ∨ g = r.generation := by
  cases h with
  | discarded hlate => exact .inl rfl
  | failedLate hlate hwrong => exact .inl rfl
  | failed hcurrent hwrong => exact .inr hcurrent
  | completed hcurrent => exact .inr hcurrent
  | refused hcurrent => exact .inr hcurrent
  | waits hcurrent hpending => exact .inr hcurrent

theorem Effect.slot_eq_or_mayWrite {r r' : Runner} {e : Event} (h : Effect r e r') :
    r'.slot = r.slot ∨ e.MayWrite r := by
  cases h with
  | unchanged => exact .inl rfl
  | submitted haccepted => exact .inr ⟨_, haccepted⟩
  | cancelled => exact .inr trivial
  | closed => exact .inr trivial
  | moved => exact .inl rfl
  | replied hfound hrunning htakes => exact htakes.slot_eq_or_current
  | settled => exact .inl rfl
  | abandoned => exact .inl rfl

/-- An answer brings a result only with the end of the run, and it is the result of that end. -/
theorem Takes.result {r : Runner} {g : Nat} {a : Reply} {p : Phase} {slot : Slot}
    (h : Takes r g a p slot) :
    slot.result = r.slot.result ∨ ∃ x, slot.result = some x ∧ g = r.generation ∧
      a = .answered (.result x) ∧ p = .ended (.returned (some x)) := by
  cases h with
  | discarded hlate => exact .inl rfl
  | failedLate hlate hwrong => exact .inl rfl
  | failed hcurrent hwrong => exact .inl rfl
  | completed hcurrent => exact .inr ⟨_, rfl, hcurrent, rfl, rfl⟩
  | refused hcurrent => exact .inl rfl
  | waits hcurrent hpending => exact .inl rfl

/-- The result in the slot is what the latest submission returned, on an answer that carried it. -/
def ResultIsLatest (es : List Event) (r : Runner) : Prop :=
  ∀ x, r.slot.result = some x → ∃ s, r.latest? = some s ∧ s.phase = .ended (.returned (some x)) ∧
    .reply s.generation (.answered (.result x)) ∈ es

/-- Moving a run that has not ended leaves a latest run that has ended. -/
theorem Ordered.latest_of_moved {r r' : Runner} {g : Nat} {s t : Submission} {p : Phase}
    (hordered : Ordered r) (hfound : r.submission? g = some s) (hrunning : s.phase.isEnded = false)
    (hmoved : r'.submissions = (r.moveTo g p).submissions) (hlast : r.latest? = some t)
    (hpast : t.phase.isEnded = true) : r'.latest? = some t := by
  have hother : t.generation ≠ g := by
    intro hsame
    have := hordered.eq_latest hfound hlast (Nat.le_of_eq hsame)
    rw [this, hpast] at hrunning
    cases hrunning
  rw [Runner.latest?, hmoved, Runner.moveTo, Runner.change, List.getLast?_map]
  rw [Runner.latest?] at hlast
  rw [hlast]
  simp [hother]

/-- A change of what callers know or of requests to stop leaves the phase of the latest run. -/
theorem ResultIsLatest.of_map {es : List Event} {r r' : Runner} {e : Event} {f : Submission → Submission}
    (h : ResultIsLatest es r) (hslot : r'.slot.result = r.slot.result)
    (hlist : r'.submissions = r.submissions.map f)
    (hkeeps : ∀ s, (f s).generation = s.generation ∧ (f s).phase = s.phase) :
    ResultIsLatest (es ++ [e]) r' := by
  intro x hresult
  rw [hslot] at hresult
  obtain ⟨s, hlast, hpast, htold⟩ := h x hresult
  refine ⟨f s, ?_, (hkeeps s).2.trans hpast, ?_⟩
  · rw [Runner.latest?] at hlast
    rw [Runner.latest?, hlist, List.getLast?_map, hlast]
    rfl
  · rw [(hkeeps s).1]
    exact List.mem_append_left _ htold

/-- A move that brings no result keeps the result of the latest run, which has ended. -/
theorem ResultIsLatest.of_moved {es : List Event} {r r' : Runner} {e : Event} {g : Nat} {s : Submission}
    {p : Phase} (h : ResultIsLatest es r) (hordered : Ordered r) (hfound : r.submission? g = some s)
    (hrunning : s.phase.isEnded = false) (hslot : r'.slot.result = r.slot.result)
    (hmoved : r'.submissions = (r.moveTo g p).submissions) : ResultIsLatest (es ++ [e]) r' := by
  intro x hresult
  rw [hslot] at hresult
  obtain ⟨t, hlast, hpast, htold⟩ := h x hresult
  refine ⟨t, ?_, hpast, List.mem_append_left _ htold⟩
  exact hordered.latest_of_moved hfound hrunning hmoved hlast (by rw [hpast]; rfl)

theorem ResultIsLatest.effect {es : List Event} {r r' : Runner} {e : Event}
    (h : ResultIsLatest es r) (hordered : Ordered r) (heffect : Effect r e r') :
    ResultIsLatest (es ++ [e]) r' := by
  cases heffect with
  | unchanged => exact h.of_map rfl (List.map_id _).symm fun s => ⟨rfl, rfl⟩
  | submitted haccepted =>
    obtain ⟨-, hslot, -⟩ := submit_eq_ok haccepted
    intro x hresult
    rw [hslot] at hresult
    cases hresult
  | cancelled =>
    obtain ⟨asked, hlist⟩ := cancel_submissions r
    exact h.of_map (cancel_result r) hlist fun s => ⟨rfl, rfl⟩
  | closed =>
    obtain ⟨asked, hlist⟩ := cancel_submissions r
    exact h.of_map (cancel_result r) hlist fun s => ⟨rfl, rfl⟩
  | moved hown hfound hrunning hresultless => exact h.of_moved hordered hfound hrunning rfl rfl
  | @replied g a s p slot calls hfound hrunning htakes =>
    rcases htakes.result with hsame | ⟨x, hresult, rfl, rfl, rfl⟩
    · exact h.of_moved hordered hfound hrunning hsame rfl
    · intro y hresult'
      cases hresult.symm.trans hresult'
      have hlast := hordered.latest_of_current hfound
      rw [Runner.latest?] at hlast
      have hgeneration := generation_of_submission? hfound
      refine ⟨{ s with phase := .ended (.returned (some x)), stopping := false }, ?_, rfl, ?_⟩
      · simp only [Runner.latest?, Runner.moveTo, Runner.change, List.getLast?_map, hlast,
          Option.map_some, hgeneration, if_true]
      · rw [hgeneration]
        exact List.mem_append_right _ (List.mem_singleton.mpr rfl)
  | settled hfound hpast hunaware =>
    exact h.of_map rfl rfl fun s => by split <;> exact ⟨rfl, rfl⟩
  | abandoned hfound hunaware =>
    exact h.of_map rfl rfl fun s => by split <;> exact ⟨rfl, rfl⟩

theorem ResultIsLatest.run (rhythm : Rhythm) (es : List Event) :
    ResultIsLatest es ((Runner.start rhythm).run es) := by
  have hboth := @run_invariant (fun es r => Ordered r ∧ ResultIsLatest es r) (Runner.start rhythm)
    ⟨.start rhythm, fun x hresult => by cases hresult⟩
    (fun h heffect => ⟨h.1.effect heffect, h.2.effect h.1 heffect⟩) es
  exact hboth.2

/-! ## Superseded submissions -/

end Runner

/-- What the caller of a superseded submission can know: nothing yet, that there is nothing, or that it
was cancelled itself. -/
def Caller.HeardNothing (g : Nat) (es : List Event) (c : Caller) : Prop :=
  c = .waiting ∨ c = .answered (.ok none) ∨ c = .cancelled ∧ .abandon g ∈ es

namespace Runner

theorem told_superseded {r : Runner} {g : Nat} (hlate : r.generation ≠ g) (ending : Ending) :
    r.told g ending = .ok none := by
  have hpast : r.isCurrent g = false := by
    simpa [Runner.isCurrent] using fun h => hlate h.symm
  cases ending <;> simp [Runner.told, hpast]

/-- A change that keeps generations and what callers know keeps what a superseded caller heard. -/
theorem heardNothing_of_map {es : List Event} {r r' : Runner} {e : Event} {g : Nat} {s : Submission}
    {f : Submission → Submission} (hlist : r'.submissions = r.submissions.map f)
    (hkeeps : ∀ s, (f s).generation = s.generation) (hfound : r.submission? g = some s)
    (hheard : (f s).caller = s.caller) (hbefore : s.caller.HeardNothing g es) :
    ∃ s', r'.submission? g = some s' ∧ s'.caller.HeardNothing g (es ++ [e]) := by
  refine ⟨f s, ?_, ?_⟩
  · rw [submission?_of_map hlist hkeeps, hfound]
    rfl
  · rw [hheard]
    exact hbefore.imp_right fun h => h.imp_right fun h => ⟨h.1, List.mem_append_left _ h.2⟩

/-- A step tells the caller of a superseded submission at most that there is nothing. -/
theorem Effect.heardNothing {es : List Event} {r r' : Runner} {e : Event} {g : Nat} {s : Submission}
    (heffect : Effect r e r') (hlate : r.generation ≠ g) (hfound : r.submission? g = some s)
    (hbefore : s.caller.HeardNothing g es) :
    ∃ s', r'.submission? g = some s' ∧ s'.caller.HeardNothing g (es ++ [e]) := by
  cases heffect with
  | unchanged =>
    exact heardNothing_of_map (List.map_id _).symm (fun s => rfl) hfound rfl hbefore
  | submitted haccepted =>
    obtain ⟨-, -, asked, hlist⟩ := submit_eq_ok haccepted
    refine ⟨{ s with stopping := asked s }, ?_, ?_⟩
    · exact submission?_of_append hlist (fun s => rfl) hfound
    · exact hbefore.imp_right fun h => h.imp_right fun h => ⟨h.1, List.mem_append_left _ h.2⟩
  | cancelled =>
    obtain ⟨asked, hlist⟩ := cancel_submissions r
    exact heardNothing_of_map hlist (fun s => rfl) hfound rfl hbefore
  | closed =>
    obtain ⟨asked, hlist⟩ := cancel_submissions r
    exact heardNothing_of_map hlist (fun s => rfl) hfound rfl hbefore
  | moved =>
    refine heardNothing_of_map rfl (fun s => ?_) hfound ?_ hbefore <;> split <;> rfl
  | replied =>
    refine heardNothing_of_map rfl (fun s => ?_) hfound ?_ hbefore <;> split <;> rfl
  | @settled h t ending hfound' hpast hunaware =>
    by_cases hsame : h = g
    · subst hsame
      refine ⟨{ s with caller := .answered (r.told h ending) }, ?_, .inr (.inl ?_)⟩
      · rw [submission?_change ?_ hfound, if_pos rfl]
        exact fun s => rfl
      · rw [told_superseded hlate]
    · refine heardNothing_of_map rfl (fun s => by split <;> rfl) hfound ?_ hbefore
      rw [generation_of_submission? hfound, if_neg (Ne.symm hsame)]
  | @abandoned h t hfound' hunaware =>
    by_cases hsame : h = g
    · subst hsame
      refine ⟨{ s with caller := .cancelled, stopping := s.stopping || !t.phase.isEnded }, ?_,
        .inr (.inr ⟨rfl, List.mem_append_right _ (List.mem_singleton.mpr rfl)⟩)⟩
      rw [submission?_change ?_ hfound, if_pos rfl]
      exact fun s => rfl
    · refine heardNothing_of_map rfl (fun s => by split <;> rfl) hfound ?_ hbefore
      rw [generation_of_submission? hfound, if_neg (Ne.symm hsame)]

theorem heardNothing_run {r : Runner} {g : Nat} {s : Submission} (hordered : Ordered r)
    (hfound : r.submission? g = some s) (hunaware : s.caller = .waiting) (hlate : r.generation ≠ g)
    (es : List Event) :
    (r.run es).generation ≠ g ∧
      ∃ s', (r.run es).submission? g = some s' ∧ s'.caller.HeardNothing g es := by
  have hbelow : g < r.generation := by
    have hissued := hordered.issued s (List.mem_of_find?_eq_some hfound)
    rw [generation_of_submission? hfound] at hissued
    omega
  have hkept := @run_invariant (fun es r => g < r.generation ∧
      ∃ s', r.submission? g = some s' ∧ s'.caller.HeardNothing g es) r
    ⟨hbelow, s, hfound, .inl hunaware⟩
    (fun {es r r' e} h heffect => by
      obtain ⟨hbelow, s, hfound, hheard⟩ := h
      obtain ⟨f, added, -, -, hgrows, -⟩ := heffect.submissions
      exact ⟨by omega, heffect.heardNothing (by omega) hfound hheard⟩) es
  exact ⟨by omega, hkept.2⟩

/-- When a superseded run has ended, its caller is told that there is nothing. -/
theorem settle_superseded {r : Runner} {g : Nat} {s : Submission} (hlate : r.generation ≠ g)
    (hfound : r.submission? g = some s) (hpast : s.phase.isEnded = true) (hunaware : s.caller = .waiting) :
    (r.step (.settle g)).submission? g = some { s with caller := .answered (.ok none) } := by
  obtain ⟨generation, c, p, stopping, caller⟩ := s
  cases hunaware
  cases p with
  | ended ending =>
    rw [Runner.step, Runner.settle, hfound]
    dsimp only
    rw [submission?_change ?_ hfound, if_pos rfl, told_superseded hlate]
    exact fun s => rfl
  | _ => cases hpast

/-! ## Refused submissions -/

theorem submit_error_iff {r : Runner} {c : Config} {fields : List DerivedField} {e : ReportError} :
    r.submit c fields = .error e ↔ DerivedField.staleFields fields c.models ≠ [] ∧
      e = .stale ((DerivedField.staleFields fields c.models).map fun f => f.id) := by
  unfold Runner.submit DerivedField.ensureFresh
  cases DerivedField.staleFields fields c.models with
  | nil =>
    constructor
    · intro h
      cases h
    · intro h
      exact absurd rfl h.1
  | cons f rest =>
    constructor
    · intro h
      cases h
      exact ⟨List.cons_ne_nil _ _, rfl⟩
    · rintro ⟨-, rfl⟩
      rfl

/-! ## The discipline of the slot -/

/-- Whatever the steps and their order: only an accepted submission, a cancellation and an answer to the
current run write the slot; a result in it is the one that the latest submission returned; the caller of
a superseded submission never hears of a result or a failure, and hears that there is nothing once its
run has ended; and a submission is refused exactly for a visible field that depends on a model outside
the selection, which leaves the runner and its calls as they were. -/
theorem slot_discipline (rhythm : Rhythm) (es : List Event) :
    (∀ e, (((start rhythm).run es).step e).slot = ((start rhythm).run es).slot ∨
      e.MayWrite ((start rhythm).run es)) ∧
    (∀ x, ((start rhythm).run es).slot.result = some x →
      ∃ s, ((start rhythm).run es).latest? = some s ∧ s.phase = .ended (.returned (some x)) ∧
        .reply s.generation (.answered (.result x)) ∈ es) ∧
    (∀ g s, ((start rhythm).run es).submission? g = some s → s.caller = .waiting →
      ((start rhythm).run es).generation ≠ g → ∀ later, ∃ s',
        ((start rhythm).run (es ++ later)).submission? g = some s' ∧
        s'.caller.HeardNothing g later ∧
        (s'.phase.isEnded = true → s'.caller = .waiting →
          (((start rhythm).run (es ++ later)).step (.settle g)).submission? g =
            some { s' with caller := .answered (.ok none) })) ∧
    (∀ c fields,
      ((∃ f ∈ fields, f.visible = true ∧ ∃ m ∈ f.effectiveModels, m ∉ c.models) ↔
        ((start rhythm).run es).submit c fields =
          .error (.stale ((DerivedField.staleFields fields c.models).map fun f => f.id))) ∧
      ∀ e, ((start rhythm).run es).submit c fields = .error e →
        e = .stale ((DerivedField.staleFields fields c.models).map fun f => f.id) ∧
        ((start rhythm).run es).step (.submit c fields) = (start rhythm).run es) := by
  have hordered := Ordered.run rhythm es
  refine ⟨fun e => (step_effect _ e).slot_eq_or_mayWrite, ResultIsLatest.run rhythm es, ?_, ?_⟩
  · intro g s hfound hunaware hlate later
    rw [run_append]
    obtain ⟨hstillLate, s', hfound', hheard⟩ := heardNothing_run hordered hfound hunaware hlate later
    exact ⟨s', hfound', hheard, fun hpast hunaware => settle_superseded hstillLate hfound' hpast hunaware⟩
  · intro c fields
    refine ⟨?_, ?_⟩
    · rw [submit_error_iff, DerivedField.staleFields_ne_nil_iff]
      exact (and_iff_left rfl).symm
    · intro e hrefused
      exact ⟨(submit_error_iff.mp hrefused).2, step_submit_error hrefused⟩

/-- A superseded submission whose run fails late, after the next one has its result: the slot keeps the
result, and the caller of the first is told that there is nothing. -/
theorem slot_discipline_late_failure :
    let c : Config := ⟨["user"], [], [], [], [], [], [], 100, .standard⟩
    let x : ImmediateResult := ⟨["User"], [], none, .empty⟩
    let es : List Event := [.submit c [], .launch 1, .submit c [], .launch 2,
      .reply 2 (.answered (.result x)), .reply 1 (.broken "gone")]
    let r := (start (.ofSettings .standard)).run es
    r.slot.result = some x ∧
    (∃ s, r.latest? = some s ∧ s.phase = .ended (.returned (some x)) ∧
      .reply s.generation (.answered (.result x)) ∈ es) ∧
    ∃ s, r.submission? 1 = some s ∧ s.caller = .waiting ∧ r.generation ≠ 1 ∧
      s.phase = .ended (.raised (.transport "gone" none)) ∧
      (r.step (.settle 1)).submission? 1 = some { s with caller := .answered (.ok none) } := by
  intro c x es r
  obtain ⟨-, hkept, hsuperseded, -⟩ := slot_discipline (.ofSettings .standard) es
  have hwaiting : r.submission? 1 =
      some ⟨1, c, .ended (.raised (.transport "gone" none)), false, .waiting⟩ := rfl
  have hlate : r.generation ≠ 1 := by
    intro h
    cases h
  have hresult : r.slot.result = some x := rfl
  obtain ⟨s, hfound, -, htold⟩ := hsuperseded 1 _ hwaiting rfl hlate []
  rw [List.append_nil] at hfound htold
  have hsame : s = ⟨1, c, .ended (.raised (.transport "gone" none)), false, .waiting⟩ :=
    (Option.some.inj (hwaiting.symm.trans hfound)).symm
  rw [hsame] at htold
  exact ⟨hresult, hkept x hresult, _, hwaiting, rfl, hlate, rfl, htold rfl rfl⟩

end Runner

end AdhocReport.Client
