import AdhocReport.Proofs.Query.JoinPlan
set_option autoImplicit false

/-!
# What a plan attaches

Joins that close a cycle are conditions, and the source of a selection is decided by the joins that attach a
model.  Whether a join attaches one depends on the models joined before it only: of the pending joins those
with both sides joined never attach anything any more.  So it does not matter which of several equal joins a
pass takes out of the pending ones, and the attaching steps of a plan are those of passes that leave such joins
out altogether.
-/

namespace AdhocReport.Query

open AdhocReport.Join

variable {joined : List String} {j : Condition} {step : JoinStep}

/-- The steps that attach a model. -/
def attaches (steps : List JoinStep) : List JoinStep := steps.filter fun s => s.model?.isSome

/-- Some side of the join is not joined yet. -/
def isOpen (joined : List String) (j : Condition) : Bool :=
  !(joined.contains j.left.model && joined.contains j.right.model)

/-- The attaching steps of one pass, and the models joined after it. -/
def sweep (joined : List String) : List Condition → List JoinStep × List String
  | [] => ([], joined)
  | j :: rest =>
    match stepOf joined j with
    | some (.attach k m) => (.attach k m :: (sweep (joined ++ [m]) rest).1, (sweep (joined ++ [m]) rest).2)
    | _ => sweep joined rest

/-- The attaching steps of a number of passes over the joins that are still open. -/
def attachments : Nat → List String → List Condition → List JoinStep
  | 0, _, _ => []
  | n + 1, joined, pending =>
    (sweep joined pending).1 ++
      attachments n (sweep joined pending).2 (pending.filter (isOpen (sweep joined pending).2))

theorem isOpen_eq_false : isOpen joined j = false ↔ j.left.model ∈ joined ∧ j.right.model ∈ joined := by
  simp [isOpen]

theorem isOpen_of_subset {final : List String} (hsub : joined ⊆ final) (h : isOpen final j = true) :
    isOpen joined j = true := by
  rw [← Bool.not_eq_false, isOpen_eq_false] at h ⊢
  exact fun hsides => h ⟨hsub hsides.1, hsub hsides.2⟩

theorem attaches_append (steps more : List JoinStep) :
    attaches (steps ++ more) = attaches steps ++ attaches more :=
  List.filter_append ..

/-! ## One pass -/

theorem sweep_of_attach {m : String} {k : Condition} (h : stepOf joined j = some (.attach k m))
    (rest : List Condition) :
    sweep joined (j :: rest) =
      (.attach k m :: (sweep (joined ++ [m]) rest).1, (sweep (joined ++ [m]) rest).2) := by
  rw [sweep, h]

theorem sweep_of_close {k : Condition} (h : stepOf joined j = some (.close k)) (rest : List Condition) :
    sweep joined (j :: rest) = sweep joined rest := by
  rw [sweep, h]

theorem sweep_of_none (h : stepOf joined j = none) (rest : List Condition) :
    sweep joined (j :: rest) = sweep joined rest := by
  rw [sweep, h]

theorem stepOf_of_closed (h : isOpen joined j = false) : stepOf joined j = some (.close j) := by
  obtain ⟨hl, hr⟩ := isOpen_eq_false.mp h
  simp [stepOf, hl, hr]

theorem subset_sweep (joined : List String) (rest : List Condition) : joined ⊆ (sweep joined rest).2 := by
  induction rest generalizing joined with
  | nil => exact fun m hm => hm
  | cons j rest ih =>
    cases hstep : stepOf joined j with
    | none =>
      rw [sweep_of_none hstep]
      exact ih joined
    | some step =>
      cases step with
      | close k =>
        rw [sweep_of_close hstep]
        exact ih joined
      | attach k m =>
        rw [sweep_of_attach hstep]
        exact fun n hn => ih _ (List.mem_append_left _ hn)

/-- A pass takes the attaching steps of its joins, whatever is pending. -/
theorem joinPass_sweep (joined : List String) (pending rest : List Condition) :
    attaches (joinPass joined pending rest).steps = (sweep joined rest).1 ∧
      (joinPass joined pending rest).joined = (sweep joined rest).2 := by
  induction rest generalizing joined pending with
  | nil => exact ⟨rfl, rfl⟩
  | cons j rest ih =>
    cases hstep : stepOf joined j with
    | none =>
      rw [joinPass_of_none hstep, sweep_of_none hstep]
      exact ih joined pending
    | some step =>
      obtain ⟨hsteps, hjoined⟩ := ih (step.after joined) (pending.erase j)
      rw [joinPass_of_step hstep]
      cases step with
      | close k =>
        rw [sweep_of_close hstep]
        simp only [JoinStep.after, JoinStep.model?, Option.toList_none, List.append_nil] at hsteps hjoined ⊢
        exact ⟨hsteps, hjoined⟩
      | attach k m =>
        rw [sweep_of_attach hstep]
        exact ⟨congrArg (List.cons _) hsteps, hjoined⟩

/-- Joins with both sides joined can be left out of a pass. -/
theorem sweep_filter {q : Condition → Bool} {rest : List Condition}
    (h : ∀ j ∈ rest, q j = false → isOpen joined j = false) :
    sweep joined (rest.filter q) = sweep joined rest := by
  induction rest generalizing joined with
  | nil => rfl
  | cons j rest ih =>
    have hrest : ∀ k ∈ rest, q k = false → isOpen joined k = false :=
      fun k hk => h k (List.mem_cons_of_mem _ hk)
    have hgrown (m : String) : ∀ k ∈ rest, q k = false → isOpen (joined ++ [m]) k = false := by
      intro k hk hq
      obtain ⟨hl, hr⟩ := isOpen_eq_false.mp (hrest k hk hq)
      exact isOpen_eq_false.mpr ⟨List.mem_append_left _ hl, List.mem_append_left _ hr⟩
    cases hq : q j with
    | false =>
      have hclosed := h j List.mem_cons_self hq
      rw [List.filter_cons_of_neg (by simp [hq]), sweep_of_close (stepOf_of_closed hclosed)]
      exact ih hrest
    | true =>
      rw [List.filter_cons_of_pos hq]
      cases hstep : stepOf joined j with
      | none =>
        rw [sweep_of_none hstep, sweep_of_none hstep]
        exact ih hrest
      | some step =>
        cases step with
        | close k =>
          rw [sweep_of_close hstep, sweep_of_close hstep]
          exact ih hrest
        | attach k m => rw [sweep_of_attach hstep, sweep_of_attach hstep, ih (hgrown m)]

/-- A pass that attaches nothing leaves the joined models as they are. -/
theorem sweep_idle {rest : List Condition} (h : (sweep joined rest).1 = []) :
    (sweep joined rest).2 = joined := by
  induction rest with
  | nil => rfl
  | cons j rest ih =>
    cases hstep : stepOf joined j with
    | none =>
      rw [sweep_of_none hstep] at h ⊢
      exact ih h
    | some step =>
      cases step with
      | close k =>
        rw [sweep_of_close hstep] at h ⊢
        exact ih h
      | attach k m =>
        rw [sweep_of_attach hstep] at h
        cases h

/-- What a pass takes out of the pending joins has both sides joined after it. -/
theorem joinPass_pending (joined : List String) (pending rest : List Condition) {final : List String}
    (hfinal : (joinPass joined pending rest).joined ⊆ final) :
    (joinPass joined pending rest).pending.filter (isOpen final) = pending.filter (isOpen final) := by
  induction rest generalizing joined pending with
  | nil => rfl
  | cons j rest ih =>
    cases hstep : stepOf joined j with
    | none =>
      rw [joinPass_of_none hstep] at hfinal ⊢
      exact ih joined pending hfinal
    | some step =>
      rw [joinPass_of_step hstep] at hfinal ⊢
      have hlater := ih (step.after joined) (pending.erase j) hfinal
      have hsub := (joinPass_path (step.after joined) (pending.erase j) rest).subset
      obtain ⟨hl, hr⟩ := mem_after_of_stepOf hstep
      have hclosed : isOpen final j = false := isOpen_eq_false.mpr ⟨hfinal (hsub _ hl), hfinal (hsub _ hr)⟩
      refine hlater.trans ?_
      -- whichever of the joins equal to this one is taken out, it is not among the open ones
      have hmem : j ∉ pending.filter (isOpen final) := by
        simp [hclosed]
      rw [← List.erase_filter, List.erase_of_not_mem hmem]

/-! ## All passes -/

theorem attachments_filter (n : Nat) (joined : List String) (pending : List Condition) :
    attachments n joined (pending.filter (isOpen joined)) = attachments n joined pending := by
  cases n with
  | zero => rfl
  | succ n =>
    have hsweep : sweep joined (pending.filter (isOpen joined)) = sweep joined pending :=
      sweep_filter fun j _ hopen => hopen
    have hfilter : (pending.filter (isOpen joined)).filter (isOpen (sweep joined pending).2) =
        pending.filter (isOpen (sweep joined pending).2) := by
      rw [List.filter_filter]
      refine List.filter_congr fun j _ => ?_
      cases hopen : isOpen (sweep joined pending).2 j with
      | false => rfl
      | true => rw [isOpen_of_subset (subset_sweep joined pending) hopen, Bool.and_true]
    rw [attachments, attachments, hsweep, hfilter]

theorem attachments_idle (n : Nat) {pending : List Condition} (h : (sweep joined pending).1 = []) :
    attachments n joined pending = [] := by
  induction n with
  | zero => rfl
  | succ n ih => rw [attachments, sweep_idle h, attachments_filter, h, ih, List.append_nil]

theorem attaches_joinSteps (n : Nat) (joined : List String) (pending : List Condition) :
    attaches (joinSteps n joined pending) = attachments n joined pending := by
  induction n generalizing joined pending with
  | zero => rfl
  | succ n ih =>
    obtain ⟨hsteps, hjoined⟩ := joinPass_sweep joined pending pending
    have hpending := joinPass_pending joined pending pending (List.Subset.refl _)
    rw [joinSteps]
    generalize joinPass joined pending pending = p at hsteps hjoined hpending ⊢
    split
    · rename_i hnone
      -- the passes stop here, and further ones would attach nothing
      rw [List.isEmpty_iff] at hnone
      rw [hnone] at hsteps
      exact (attachments_idle (n + 1) hsteps.symm).symm
    · rw [attaches_append, ih, hsteps, attachments, ← attachments_filter n p.joined, hpending, hjoined]

/-- The attaching steps of a plan. -/
theorem attaches_joinPlan (models : List String) (joins : List Condition) :
    attaches (joinPlan models joins) =
      attachments (usableJoins models joins).length (models.take 1) (usableJoins models joins) :=
  attaches_joinSteps ..

end AdhocReport.Query
