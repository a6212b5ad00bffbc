import Mathlib.Data.Sym.Sym2
import AdhocReport.Proofs.Query.Attachment
set_option autoImplicit false

/-!
# Joins turned around

A left join read from the other side is a right join.  Any of the joins of a selection may be turned around
in this way: each attaches the same model at the same point of the plan, with the same side preserved, and
the joins that close cycles are the same up to their direction.  So whether the selection can be joined and
which rows it has does not depend on the direction in which the joins are written.
-/

namespace AdhocReport.Join

/-- The kind of a join that is read from the other side. -/
def Kind.mirror : Kind → Kind
  | .inner => .inner
  | .left => .right
  | .right => .left
  | .full => .full

namespace Condition

/-- The join, read from the other side. -/
def mirror (j : Condition) : Condition := ⟨j.id, j.right, j.left, j.kind.mirror, j.description⟩

theorem mirror_mirror (j : Condition) : j.mirror.mirror = j := by
  obtain ⟨id, l, r, kind, description⟩ := j
  cases kind <;> rfl

/-- The join is as it was, or it was turned around. -/
def Turned (j j' : Condition) : Prop := j' = j ∨ j' = j.mirror

theorem Turned.symm {j j' : Condition} (h : j.Turned j') : j'.Turned j := by
  rcases h with rfl | rfl
  · exact .inl rfl
  · exact .inr j.mirror_mirror.symm

/-- The join without its direction. -/
def undirected (j : Condition) : Sym2 Condition := s(j, j.mirror)

theorem undirected_eq {j k : Condition} : j.undirected = k.undirected ↔ j.Turned k := by
  rw [undirected, undirected, Sym2.eq_iff]
  constructor
  · rintro (⟨rfl, -⟩ | ⟨-, hk⟩)
    · exact .inl rfl
    · exact .inr hk.symm
  · rintro (rfl | rfl)
    · exact .inl ⟨rfl, rfl⟩
    · exact .inr ⟨j.mirror_mirror.symm, rfl⟩

end Condition

/-! ## Linked models -/

variable {selected : List String} {joins joins' : List Condition}

theorem map_undirected (h : List.Forall₂ Condition.Turned joins joins') :
    joins.map Condition.undirected = joins'.map Condition.undirected := by
  induction h with
  | nil => rfl
  | cons hj _ ih => rw [List.map_cons, List.map_cons, Condition.undirected_eq.mpr hj, ih]

theorem forall₂_turned_symm (h : List.Forall₂ Condition.Turned joins joins') :
    List.Forall₂ Condition.Turned joins' joins :=
  h.flip.imp fun _ _ => Condition.Turned.symm

theorem adjacent_of_turned (h : List.Forall₂ Condition.Turned joins joins') {m n : String}
    (hadjacent : Adjacent selected (joins.map Condition.models) m n) :
    Adjacent selected (joins'.map Condition.models) m n := by
  obtain ⟨p, hp, ⟨hl, hr, hne⟩, hends⟩ := hadjacent
  obtain ⟨j, hj, rfl⟩ := List.mem_map.mp hp
  have hmem : j.undirected ∈ joins'.map Condition.undirected := by
    rw [← map_undirected h]
    exact List.mem_map_of_mem hj
  obtain ⟨k, hk, hsame⟩ := List.mem_map.mp hmem
  refine ⟨k.models, List.mem_map_of_mem hk, ?_⟩
  rcases Condition.undirected_eq.mp hsame.symm with rfl | rfl
  · exact ⟨⟨hl, hr, hne⟩, hends⟩
  · refine ⟨⟨hr, hl, hne.symm⟩, hends.symm.imp ?_ ?_⟩
    · intro hends
      exact congrArg Prod.swap hends
    · intro hends
      exact congrArg Prod.swap hends

theorem linked_turned (h : List.Forall₂ Condition.Turned joins joins') :
    Linked selected (joins'.map Condition.models) = Linked selected (joins.map Condition.models) := by
  have hadjacent : Adjacent selected (joins'.map Condition.models) =
      Adjacent selected (joins.map Condition.models) := by
    funext m n
    exact propext ⟨adjacent_of_turned (forall₂_turned_symm h), adjacent_of_turned h⟩
  unfold Linked
  rw [hadjacent]

theorem disconnected_turned (h : List.Forall₂ Condition.Turned joins joins') {models : List String}
    {first : String} (hfirst : models.head? = some first) :
    (analyze models (joins'.map Condition.models)).disconnected =
      (analyze models (joins.map Condition.models)).disconnected := by
  refine List.filter_congr fun m _ => ?_
  have hprimary : m ∈ (analyze models (joins'.map Condition.models)).components.headD [] ↔
      m ∈ (analyze models (joins.map Condition.models)).components.headD [] := by
    rw [mem_primary hfirst, mem_primary hfirst, linked_turned h]
  rw [Bool.eq_iff_iff, Bool.not_eq_true', Bool.not_eq_true', ← Bool.not_eq_true, ← Bool.not_eq_true,
    List.contains_iff_mem, List.contains_iff_mem]
  exact not_congr hprimary

end AdhocReport.Join

namespace AdhocReport.Query

open AdhocReport.Join

variable {joins joins' : List Join.Condition} {j j' : Join.Condition}

/-! ## Plans -/

/-- The steps attach the same model by a join and by the same join turned around. -/
inductive JoinStep.Turned : JoinStep → JoinStep → Prop
  | attach {j j' : Join.Condition} (h : j.Turned j') (m : String) : Turned (.attach j m) (.attach j' m)

theorem isOpen_turned (h : j.Turned j') (joined : List String) : isOpen joined j' = isOpen joined j := by
  rcases h with rfl | rfl
  · rfl
  · simp only [isOpen, Join.Condition.mirror, Bool.and_comm]

/-- A step of a join that was turned around, for the same join turned around. -/
theorem stepOf_turned (h : j.Turned j') (joined : List String) :
    (stepOf joined j = none ∧ stepOf joined j' = none) ∨
      (stepOf joined j = some (.close j) ∧ stepOf joined j' = some (.close j')) ∨
      ∃ m, stepOf joined j = some (.attach j m) ∧ stepOf joined j' = some (.attach j' m) := by
  rcases h with rfl | rfl
  · cases hstep : stepOf joined j' with
    | none => exact .inl ⟨rfl, rfl⟩
    | some step =>
      rcases stepOf_eq_some hstep with ⟨rfl, -, -⟩ | ⟨rfl, -, -⟩ | ⟨rfl, -, -⟩
      · exact .inr (.inl ⟨rfl, rfl⟩)
      · exact .inr (.inr ⟨_, rfl, rfl⟩)
      · exact .inr (.inr ⟨_, rfl, rfl⟩)
  · unfold stepOf
    simp only [Join.Condition.mirror]
    cases joined.contains j.left.model <;> cases joined.contains j.right.model
    · exact .inl ⟨rfl, rfl⟩
    · exact .inr (.inr ⟨_, rfl, rfl⟩)
    · exact .inr (.inr ⟨_, rfl, rfl⟩)
    · exact .inr (.inl ⟨rfl, rfl⟩)

theorem sweep_turned (h : List.Forall₂ Join.Condition.Turned joins joins') (joined : List String) :
    List.Forall₂ JoinStep.Turned (sweep joined joins).1 (sweep joined joins').1 ∧
      (sweep joined joins).2 = (sweep joined joins').2 := by
  induction h generalizing joined with
  | nil => exact ⟨.nil, rfl⟩
  | cons hj _ ih =>
    rcases stepOf_turned hj joined with ⟨hstep, hstep'⟩ | ⟨hstep, hstep'⟩ | ⟨m, hstep, hstep'⟩
    · rw [sweep_of_none hstep, sweep_of_none hstep']
      exact ih joined
    · rw [sweep_of_close hstep, sweep_of_close hstep']
      exact ih joined
    · rw [sweep_of_attach hstep, sweep_of_attach hstep']
      obtain ⟨hsteps, hjoined⟩ := ih (joined ++ [m])
      exact ⟨.cons (.attach hj m) hsteps, hjoined⟩

theorem filter_turned {q : Join.Condition → Bool} (hq : ∀ j j', j.Turned j' → q j' = q j)
    (h : List.Forall₂ Join.Condition.Turned joins joins') :
    List.Forall₂ Join.Condition.Turned (joins.filter q) (joins'.filter q) := by
  induction h with
  | nil => exact .nil
  | @cons j j' joins joins' hj _ ih =>
    have hsame := hq j j' hj
    cases hkept : q j with
    | false =>
      rw [List.filter_cons_of_neg (by simp [hkept]), List.filter_cons_of_neg (by simp [hsame, hkept])]
      exact ih
    | true =>
      rw [List.filter_cons_of_pos hkept, List.filter_cons_of_pos (hsame.trans hkept)]
      exact .cons hj ih

theorem attachments_turned (n : Nat) (h : List.Forall₂ Join.Condition.Turned joins joins')
    (joined : List String) :
    List.Forall₂ JoinStep.Turned (attachments n joined joins) (attachments n joined joins') := by
  induction n generalizing joined joins joins' with
  | zero => exact .nil
  | succ n ih =>
    obtain ⟨hsteps, hjoined⟩ := sweep_turned h joined
    rw [attachments, attachments, ← hjoined]
    exact List.rel_append hsteps (ih (filter_turned (fun j j' hj => isOpen_turned hj _) h) _)

theorem usableJoins_turned (models : List String) (h : List.Forall₂ Join.Condition.Turned joins joins') :
    List.Forall₂ Join.Condition.Turned (usableJoins models joins) (usableJoins models joins') := by
  refine filter_turned (fun j j' hj => ?_) h
  rcases hj with rfl | rfl
  · rfl
  · simp only [Join.Condition.mirror, Bool.and_comm]

/-- The plan of joins that were turned around attaches the same models by the same joins, in the same order. -/
theorem attaches_turned (models : List String) (h : List.Forall₂ Join.Condition.Turned joins joins') :
    List.Forall₂ JoinStep.Turned (attaches (joinPlan models joins)) (attaches (joinPlan models joins')) := by
  have husable := usableJoins_turned models h
  rw [attaches_joinPlan, attaches_joinPlan, ← husable.length_eq]
  exact attachments_turned _ husable _

/-- The joins of the steps that close a cycle. -/
def closings (steps : List JoinStep) : List Join.Condition :=
  (steps.filter fun s => !s.model?.isSome).map JoinStep.join

theorem attaches_append_closings (steps : List JoinStep) :
    ((attaches steps).map JoinStep.join ++ closings steps).Perm (steps.map JoinStep.join) := by
  rw [attaches, closings, ← List.map_append]
  exact (List.filter_append_perm _ steps).map _

theorem map_undirected_attaches {steps steps' : List JoinStep}
    (h : List.Forall₂ JoinStep.Turned steps steps') :
    (steps.map JoinStep.join).map Join.Condition.undirected =
      (steps'.map JoinStep.join).map Join.Condition.undirected := by
  induction h with
  | nil => rfl
  | cons hstep _ ih =>
    obtain ⟨hj, m⟩ := hstep
    simp only [List.map_cons, ih, JoinStep.join, Join.Condition.undirected_eq.mpr hj]

/-- Where all joins between selected models are taken, those that close a cycle are the same up to their
direction. -/
theorem mem_closings_turned {models : List String} (h : List.Forall₂ Join.Condition.Turned joins joins')
    (hplan : ((joinPlan models joins).map JoinStep.join).Perm (usableJoins models joins))
    (hplan' : ((joinPlan models joins').map JoinStep.join).Perm (usableJoins models joins'))
    (hj : j ∈ closings (joinPlan models joins)) : ∃ j' ∈ closings (joinPlan models joins'), j.Turned j' := by
  -- counted without their directions, both selections have the same joins, and those that attach cancel
  have hsplit := (attaches_append_closings (joinPlan models joins)).trans hplan
  have hsplit' := (attaches_append_closings (joinPlan models joins')).trans hplan'
  have hperm := hsplit.map Join.Condition.undirected
  have hperm' := hsplit'.map Join.Condition.undirected
  rw [List.map_append] at hperm hperm'
  rw [← map_undirected (usableJoins_turned models h),
    ← map_undirected_attaches (attaches_turned models h)] at hperm'
  have hclosings := (List.perm_append_left_iff _).mp (hperm.trans hperm'.symm)
  obtain ⟨j', hj', hsame⟩ := List.mem_map.mp (hclosings.subset (List.mem_map_of_mem hj))
  exact ⟨j', hj', Join.Condition.undirected_eq.mp hsame.symm⟩

end AdhocReport.Query
