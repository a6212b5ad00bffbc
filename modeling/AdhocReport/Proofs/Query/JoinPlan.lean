import AdhocReport.Query.JoinPlan
import AdhocReport.Proofs.Join.Graph
import Mathlib.Data.List.Perm.Subperm
set_option autoImplicit false

/-!
# The join plan of a selection

Every step of a plan is allowed by the models joined before it.  A pass takes each join that it can, at
most once; when no pass takes a step any more, no remaining join has a side among the joined models.
If all selected models are linked to the first one, a remaining join would have to cross from the joined
models to the others, so that none remains and every selected model is joined.
-/

namespace AdhocReport.Query

open AdhocReport.Join AdhocReport.Collection

variable {joined final : List String} {j : Condition} {step : JoinStep} {steps : List JoinStep}

/-! ## Steps -/

/-- What a step allowed by a join is: it closes a cycle, or it attaches the side that is not joined. -/
theorem stepOf_eq_some (h : stepOf joined j = some step) :
    (step = .close j ∧ j.left.model ∈ joined ∧ j.right.model ∈ joined) ∨
      (step = .attach j j.right.model ∧ j.left.model ∈ joined ∧ j.right.model ∉ joined) ∨
      (step = .attach j j.left.model ∧ j.left.model ∉ joined ∧ j.right.model ∈ joined) := by
  unfold stepOf at h
  split at h
  · rename_i hl hr
    exact .inl ⟨(Option.some.inj h).symm, by simpa using hl, by simpa using hr⟩
  · rename_i hl hr
    exact .inr (.inl ⟨(Option.some.inj h).symm, by simpa using hl, by simpa using hr⟩)
  · rename_i hl hr
    exact .inr (.inr ⟨(Option.some.inj h).symm, by simpa using hl, by simpa using hr⟩)
  · cases h

theorem stepOf_eq_none (h : stepOf joined j = none) : j.left.model ∉ joined ∧ j.right.model ∉ joined := by
  unfold stepOf at h
  split at h
  · cases h
  · cases h
  · cases h
  · rename_i hl hr
    exact ⟨by simpa using hl, by simpa using hr⟩

theorem join_of_stepOf (h : stepOf joined j = some step) : step.join = j := by
  rcases stepOf_eq_some h with ⟨rfl, -, -⟩ | ⟨rfl, -, -⟩ | ⟨rfl, -, -⟩ <;> rfl

/-- The models joined after a step. -/
def JoinStep.after (joined : List String) (step : JoinStep) : List String := joined ++ step.model?.toList

theorem mem_after_of_stepOf (h : stepOf joined j = some step) :
    j.left.model ∈ step.after joined ∧ j.right.model ∈ step.after joined := by
  rcases stepOf_eq_some h with ⟨rfl, hl, hr⟩ | ⟨rfl, hl, -⟩ | ⟨rfl, -, hr⟩
  · exact ⟨List.mem_append_left _ hl, List.mem_append_left _ hr⟩
  · exact ⟨List.mem_append_left _ hl, List.mem_append_right _ (by simp [JoinStep.model?])⟩
  · exact ⟨List.mem_append_right _ (by simp [JoinStep.model?]), List.mem_append_left _ hr⟩

/-- A step attaches a side of its join. -/
theorem mem_after {m : String} (h : stepOf joined j = some step) (hm : m ∈ step.after joined) :
    m ∈ joined ∨ m = j.left.model ∨ m = j.right.model := by
  rcases List.mem_append.mp hm with hm | hm
  · exact .inl hm
  · rcases stepOf_eq_some h with ⟨rfl, -, -⟩ | ⟨rfl, -, -⟩ | ⟨rfl, -, -⟩
    · simp [JoinStep.model?] at hm
    · exact .inr (.inr (by simpa [JoinStep.model?] using hm))
    · exact .inr (.inl (by simpa [JoinStep.model?] using hm))

theorem nodup_after (h : stepOf joined j = some step) (hnodup : joined.Nodup) :
    (step.after joined).Nodup := by
  rcases stepOf_eq_some h with ⟨rfl, -, -⟩ | ⟨rfl, -, hm⟩ | ⟨rfl, hm, -⟩
  · simpa [JoinStep.after, JoinStep.model?] using hnodup
  · have hconcat := List.Nodup.concat hm hnodup
    simpa [JoinStep.after, JoinStep.model?] using hconcat
  · have hconcat := List.Nodup.concat hm hnodup
    simpa [JoinStep.after, JoinStep.model?] using hconcat

/-! ## Paths of steps -/

/-- Steps that can be taken one after another, from the models joined before to those joined after. -/
inductive Path : List String → List JoinStep → List String → Prop
  | done (joined : List String) : Path joined [] joined
  | step {joined final : List String} {j : Condition} {step : JoinStep} {steps : List JoinStep} :
      stepOf joined j = some step → Path (step.after joined) steps final →
      Path joined (step :: steps) final

namespace Path

theorem append {middle : List String} {more : List JoinStep} (h : Path joined steps middle)
    (hmore : Path middle more final) : Path joined (steps ++ more) final := by
  induction h with
  | done => exact hmore
  | step hstep _ ih => exact .step hstep (ih hmore)

theorem subset (h : Path joined steps final) : ∀ m ∈ joined, m ∈ final := by
  induction h with
  | done => exact fun m hm => hm
  | step _ _ ih => exact fun m hm => ih m (List.mem_append_left _ hm)

/-- Both sides of every join that was taken are joined in the end. -/
theorem sides (h : Path joined steps final) :
    ∀ j ∈ steps.map JoinStep.join, j.left.model ∈ final ∧ j.right.model ∈ final := by
  induction h with
  | done => simp
  | step hstep hpath ih =>
    intro k hk
    rcases List.mem_cons.mp hk with rfl | hk
    · rw [join_of_stepOf hstep]
      obtain ⟨hl, hr⟩ := mem_after_of_stepOf hstep
      exact ⟨hpath.subset _ hl, hpath.subset _ hr⟩
    · exact ih k hk

theorem mem_final {m : String} (h : Path joined steps final) (hm : m ∈ final) :
    m ∈ joined ∨ ∃ j ∈ steps.map JoinStep.join, m = j.left.model ∨ m = j.right.model := by
  induction h with
  | done => exact .inl hm
  | step hstep _ ih =>
    rcases ih hm with hafter | ⟨k, hk, hside⟩
    · rcases mem_after hstep hafter with hjoined | hside
      · exact .inl hjoined
      · exact .inr ⟨_, by simp [join_of_stepOf hstep], hside⟩
    · exact .inr ⟨k, List.mem_cons_of_mem _ hk, hside⟩

theorem nodup (h : Path joined steps final) (hnodup : joined.Nodup) : final.Nodup := by
  induction h with
  | done => exact hnodup
  | step hstep _ ih => exact ih (nodup_after hstep hnodup)

end Path

/-! ## Passes -/

theorem joinPass_of_step {pending rest : List Condition} (h : stepOf joined j = some step) :
    joinPass joined pending (j :: rest) =
      { joinPass (step.after joined) (pending.erase j) rest with
        steps := step :: (joinPass (step.after joined) (pending.erase j) rest).steps } := by
  rw [joinPass, h]
  rfl

theorem joinPass_of_none {pending rest : List Condition} (h : stepOf joined j = none) :
    joinPass joined pending (j :: rest) = joinPass joined pending rest := by
  rw [joinPass, h]

theorem joinPass_path (joined : List String) (pending rest : List Condition) :
    Path joined (joinPass joined pending rest).steps (joinPass joined pending rest).joined := by
  induction rest generalizing joined pending with
  | nil => exact .done joined
  | cons j rest ih =>
    cases h : stepOf joined j with
    | some step =>
      rw [joinPass_of_step h]
      exact .step h (ih _ _)
    | none =>
      rw [joinPass_of_none h]
      exact ih _ _

/-- A pass takes pending joins only, each once; the others stay pending. -/
theorem joinPass_perm (joined : List String) {pending rest : List Condition} (hrest : rest.Subperm pending) :
    ((joinPass joined pending rest).steps.map JoinStep.join ++ (joinPass joined pending rest).pending).Perm
      pending := by
  induction rest generalizing joined pending with
  | nil => exact .refl _
  | cons j rest ih =>
    cases h : stepOf joined j with
    | some step =>
      have hmem : j ∈ pending := hrest.subset (List.mem_cons_self ..)
      have hsub : rest.Subperm (pending.erase j) := by
        have herase := hrest.erase j
        rwa [List.erase_cons_head] at herase
      rw [joinPass_of_step h]
      simp only [List.map_cons, List.cons_append, join_of_stepOf h]
      exact ((ih _ hsub).cons j).trans (List.perm_cons_erase hmem).symm
    | none =>
      rw [joinPass_of_none h]
      exact ih joined ((List.sublist_cons_self j rest).subperm.trans hrest)

/-- A pass without a step has found no join with a joined side. -/
theorem joinPass_idle {joined : List String} {pending rest : List Condition}
    (h : (joinPass joined pending rest).steps = []) : ∀ j ∈ rest, stepOf joined j = none := by
  induction rest with
  | nil => simp
  | cons j rest ih =>
    cases hj : stepOf joined j with
    | some step =>
      rw [joinPass_of_step hj] at h
      cases h
    | none =>
      rw [joinPass_of_none hj] at h
      intro k hk
      rcases List.mem_cons.mp hk with rfl | hk
      · exact hj
      · exact ih h k hk

/-- The passes end with joins that have no side among the joined models. -/
theorem joinSteps_run {fuel : Nat} (joined : List String) {pending : List Condition}
    (hfuel : pending.length ≤ fuel) :
    ∃ left final, Path joined (joinSteps fuel joined pending) final ∧
      ((joinSteps fuel joined pending).map JoinStep.join ++ left).Perm pending ∧
      ∀ j ∈ left, stepOf final j = none := by
  induction fuel generalizing joined pending with
  | zero =>
    obtain rfl := List.length_eq_zero_iff.mp (Nat.le_zero.mp hfuel)
    exact ⟨[], joined, .done joined, .refl _, by simp⟩
  | succ fuel ih =>
    have hpath := joinPass_path joined pending pending
    have hperm := joinPass_perm joined (List.Subperm.refl pending)
    have hidle : (joinPass joined pending pending).steps = [] → ∀ j ∈ pending, stepOf joined j = none :=
      joinPass_idle
    generalize hpass : joinPass joined pending pending = p at hpath hperm hidle
    by_cases hsteps : p.steps = []
    · have hstop : joinSteps (fuel + 1) joined pending = [] := by simp [joinSteps, hpass, hsteps]
      rw [hstop]
      exact ⟨pending, joined, .done joined, .refl _, hidle hsteps⟩
    · have hgo : joinSteps (fuel + 1) joined pending = p.steps ++ joinSteps fuel p.joined p.pending := by
        simp [joinSteps, hpass, hsteps]
      have hshorter : p.pending.length ≤ fuel := by
        have hlength := hperm.length_eq
        have hpos := List.length_pos_iff.mpr hsteps
        simp only [List.length_append, List.length_map] at hlength
        omega
      obtain ⟨left, final, hrest, hleft, hnone⟩ := ih p.joined hshorter
      refine ⟨left, final, ?_, ?_, hnone⟩
      · rw [hgo]
        exact hpath.append hrest
      · rw [hgo, List.map_append, List.append_assoc]
        exact (hleft.append_left _).trans hperm

/-! ## Plans -/

theorem mem_usableJoins {models : List String} {joins : List Condition} :
    j ∈ usableJoins models joins ↔ j ∈ joins ∧ j.left.model ∈ models ∧ j.right.model ∈ models := by
  simp [usableJoins]

/-- Where the joins that were not taken have no side among the joined models, no join between selected
models leads out of these. -/
theorem Path.closed {models : List String} {joins left : List Condition} (h : Path joined steps final)
    (hperm : (steps.map JoinStep.join ++ left).Perm (usableJoins models joins))
    (hnone : ∀ j ∈ left, stepOf final j = none) :
    ∀ a ∈ final, ∀ b, Adjacent models (joins.map Condition.models) a b → b ∈ final := by
  rintro a ha b ⟨pair, hpair, ⟨hl, hr, -⟩, hab⟩
  obtain ⟨k, hk, rfl⟩ := List.mem_map.mp hpair
  have hk' : k ∈ usableJoins models joins := mem_usableJoins.mpr ⟨hk, hl, hr⟩
  rcases List.mem_append.mp (hperm.symm.subset hk') with htaken | hleft
  · obtain ⟨hkl, hkr⟩ := h.sides k htaken
    rcases hab with hab | hab
    · rwa [← (Prod.mk.inj hab).2]
    · rwa [← (Prod.mk.inj hab).1]
  · obtain ⟨hkl, hkr⟩ := stepOf_eq_none (hnone k hleft)
    rcases hab with hab | hab
    · exact absurd ((Prod.mk.inj hab).1 ▸ ha) hkl
    · exact absurd ((Prod.mk.inj hab).2 ▸ ha) hkr

/-- If every selected model is linked to the first, the plan joins each of them once and takes every
join between selected models once. -/
theorem joinPlan_spans {models : List String} {joins : List Condition} {first : String}
    (hfirst : models.head? = some first)
    (hlinked : ∀ m ∈ models, Linked models (joins.map Condition.models) first m) :
    ∃ final, Path [first] (joinPlan models joins) final ∧ final.Perm (distinct models) ∧
      ((joinPlan models joins).map JoinStep.join).Perm (usableJoins models joins) := by
  have hplan : joinPlan models joins =
      joinSteps (usableJoins models joins).length [first] (usableJoins models joins) := by
    obtain ⟨rest, rfl⟩ := List.head?_eq_some_iff.mp hfirst
    rfl
  obtain ⟨left, final, hpath, hperm, hnone⟩ :=
    joinSteps_run [first] (Nat.le_refl (usableJoins models joins).length)
  rw [← hplan] at hpath hperm
  have hmem : first ∈ models := List.mem_of_head? hfirst
  have husable : ∀ k ∈ (joinPlan models joins).map JoinStep.join, k ∈ usableJoins models joins :=
    fun k hk => hperm.subset (List.mem_append_left _ hk)
  have hall : ∀ m ∈ models, m ∈ final := fun m hm =>
    (hlinked m hm).mem_of_closed (hpath.closed hperm hnone) (hpath.subset _ (by simp))
  have hselected : ∀ m ∈ final, m ∈ models := by
    intro m hm
    rcases hpath.mem_final hm with hm | ⟨k, hk, hside⟩
    · rwa [List.mem_singleton.mp hm]
    · obtain ⟨-, hl, hr⟩ := mem_usableJoins.mp (husable k hk)
      rcases hside with rfl | rfl
      · exact hl
      · exact hr
  have hnothing : left = [] := by
    refine List.eq_nil_iff_forall_not_mem.mpr fun k hk => ?_
    obtain ⟨-, hl, -⟩ := mem_usableJoins.mp (hperm.subset (List.mem_append_right _ hk))
    exact (stepOf_eq_none (hnone k hk)).1 (hall _ hl)
  refine ⟨final, hpath, ?_, by simpa [hnothing] using hperm⟩
  refine (List.perm_ext_iff_of_nodup (hpath.nodup (by simp)) (nodup_distinct models)).mpr fun m => ?_
  rw [mem_distinct]
  exact ⟨hselected m, hall m⟩

end AdhocReport.Query
