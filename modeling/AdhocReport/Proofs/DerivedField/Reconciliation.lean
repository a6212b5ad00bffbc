import AdhocReport.DerivedField.Basic
import AdhocReport.Proofs.Collection.Sorting
import Mathlib.Data.List.Forall2
set_option autoImplicit false

/-!
# Derived fields: reconciliation

A selection settles the status of each field anew, from the models that the field depends on, and
touches nothing else of it.  So of a run of selections only the last one shows: a field is stale when
it depends on a model outside that selection, whatever was selected before.  The check before a query
names the visible fields that are stale.
-/

namespace AdhocReport.DerivedField

/-- A field depends on a model: on one that is stored with it; if none is, on one that its expression
refers to; and if the expression does not parse, on one that a scan of it mentions. -/
inductive DependsOn (f : DerivedField) (m : String) : Prop
  | stored : m ∈ f.referencedModels → DependsOn f m
  | parsed {tree : Expr} : f.referencedModels = [] → Expr.parse (some f.expression) = .ok tree →
      (∃ ref ∈ tree.columns, ref.model = m) → DependsOn f m
  | mentioned {e : SyntaxError} : f.referencedModels = [] → Expr.parse (some f.expression) = .error e →
      m ∈ Expr.mentionedModels f.expression → DependsOn f m

theorem mem_effectiveModels_iff {f : DerivedField} {m : String} : m ∈ f.effectiveModels ↔ f.DependsOn m := by
  unfold effectiveModels
  constructor
  · intro h
    split at h
    · rename_i hempty
      have hnone := List.isEmpty_iff.mp hempty
      split at h
      · rename_i tree hparse
        exact .parsed hnone hparse (Expr.mem_models.mp h)
      · rename_i e hparse
        exact .mentioned hnone hparse h
    · exact .stored h
  · intro h
    cases h with
    | stored hmem =>
      rw [if_neg]
      · exact hmem
      · rw [List.isEmpty_iff]
        exact List.ne_nil_of_mem hmem
    | parsed hnone hparse href =>
      rw [hnone, hparse]
      exact Expr.mem_models.mpr href
    | mentioned hnone hparse hmem =>
      rw [hnone, hparse]
      exact hmem

/-- Some model that the field depends on is not selected. -/
def Outside (f : DerivedField) (selected : List String) : Prop := ∃ m, f.DependsOn m ∧ m ∉ selected

/-! ## One field -/

section

variable (f : DerivedField) (earlier selected : List String)

theorem reconciled_eq : f.reconciled selected = { f with status := f.expectedStatus selected } := by
  unfold reconciled
  split
  · rename_i hsame
    rw [hsame]
  · rfl

theorem expectedStatus_eq_stale_iff : f.expectedStatus selected = .stale ↔ f.Outside selected := by
  have hstale := isStale_reconciled f selected
  rw [isStale, reconciled_eq, beq_iff_eq] at hstale
  simp only [hstale, mem_effectiveModels_iff]
  rfl

/-- The status expected of a field does not depend on the one that it has. -/
theorem expectedStatus_reconciled : (f.reconciled earlier).expectedStatus selected = f.expectedStatus selected := by
  rw [reconciled_eq]
  rfl

theorem reconciled_reconciled : (f.reconciled earlier).reconciled selected = f.reconciled selected := by
  rw [reconciled_eq (f.reconciled earlier), expectedStatus_reconciled, reconciled_eq f earlier,
    reconciled_eq f selected]

/-- A field is handed back itself when its status is already the one expected. -/
theorem changes_eq_false_iff : f.changes selected = false ↔ f.expectedStatus selected = f.status := by
  rw [changes, bne_eq_false_iff_eq]

theorem reconciled_eq_self_iff : f.reconciled selected = f ↔ f.expectedStatus selected = f.status := by
  rw [reconciled_eq]
  constructor
  · intro h
    exact congrArg status h
  · intro h
    rw [h]

theorem changes_reconciled : (f.reconciled selected).changes selected = false := by
  rw [changes_eq_false_iff, expectedStatus_reconciled, reconciled_eq]

/-- The status of a field is right when it says whether the field depends on a model outside the
selection. -/
theorem expectedStatus_eq_status_iff :
    f.expectedStatus selected = f.status ↔ (f.status = .stale ↔ f.Outside selected) := by
  rw [← expectedStatus_eq_stale_iff]
  cases f.status <;> cases f.expectedStatus selected <;> decide

variable {f selected}

/-- A field that fits a selection fits every larger one. -/
theorem Outside.of_subset {larger : List String} (hsubset : selected ⊆ larger) (h : f.Outside larger) :
    f.Outside selected := by
  obtain ⟨m, hm, hmissing⟩ := h
  exact ⟨m, hm, fun hmem => hmissing (hsubset hmem)⟩

theorem expectedStatus_eq_active {larger : List String} (hsubset : selected ⊆ larger)
    (h : f.expectedStatus selected = .active) : f.expectedStatus larger = .active := by
  cases hlarger : f.expectedStatus larger with
  | active => rfl
  | stale =>
    have houtside : f.Outside larger := (expectedStatus_eq_stale_iff f larger).mp hlarger
    have hstale := (expectedStatus_eq_stale_iff f selected).mpr (houtside.of_subset hsubset)
    rw [h] at hstale
    cases hstale

end

/-! ## Runs of selections -/

/-- Fields are reconciled with one selection after another, each time as they came out before. -/
def reconcileAll (fields : List DerivedField) (history : List (List String)) : List DerivedField :=
  history.foldl reconcile fields

theorem reconcile_reconcile (fields : List DerivedField) (earlier selected : List String) :
    reconcile (reconcile fields earlier) selected = reconcile fields selected := by
  simp only [reconcile, List.map_map]
  exact List.map_congr_left fun f _ => reconciled_reconciled f earlier selected

/-- What was selected before the last selection does not show. -/
theorem reconcile_reconcileAll (fields : List DerivedField) (history : List (List String)) (selected : List String) :
    reconcile (reconcileAll fields history) selected = reconcile fields selected := by
  induction history generalizing fields with
  | nil => rfl
  | cons earlier history ih =>
    calc reconcile (reconcileAll (reconcile fields earlier) history) selected
        = reconcile (reconcile fields earlier) selected := ih (reconcile fields earlier)
      _ = reconcile fields selected := reconcile_reconcile fields earlier selected

/-! ## The check before a query -/

theorem mem_staleFields {fields : List DerivedField} {selected : List String} {g : DerivedField} :
    g ∈ staleFields fields selected ↔ g ∈ reconcile fields selected ∧ g.visible = true ∧ g.status = .stale := by
  rw [staleFields, List.mem_filter, Bool.and_eq_true, isStale, beq_iff_eq]

/-- The check refuses a selection for its stale visible fields, which it names in code point order. -/
theorem ensureFresh_cases (fields : List DerivedField) (selected : List String) :
    (staleFields fields selected = [] ∧ ensureFresh fields selected = .ok ()) ∨
      (staleFields fields selected ≠ [] ∧ ∃ ids, ensureFresh fields selected = .error (.staleFields ids) ∧
        ids.Pairwise (· < ·) ∧ ∀ id, id ∈ ids ↔ ∃ g ∈ staleFields fields selected, g.id = id) := by
  by_cases hnone : staleFields fields selected = []
  · left
    refine ⟨hnone, ?_⟩
    rw [ensureFresh, hnone]
    rfl
  · right
    refine ⟨hnone, Collection.sortedSet ((staleFields fields selected).map (·.id)), ?_, ?_, ?_⟩
    · rw [ensureFresh, if_neg (mt List.isEmpty_iff.mp hnone)]
      rfl
    · apply Collection.sortedSet_increasing
    · intro id
      rw [Collection.mem_sortedSet, List.mem_map]

/-- The check passes exactly when no visible field comes out stale, and else names the fields that do. -/
theorem ensureFresh_outcome (fields : List DerivedField) (selected : List String) :
    (ensureFresh fields selected = .ok () ↔
      ∀ g ∈ reconcile fields selected, g.visible = true → g.status ≠ .stale) ∧
    ∀ e, ensureFresh fields selected = .error e → ∃ ids, e = .staleFields ids ∧ ids.Pairwise (· < ·) ∧
      ∀ id, id ∈ ids ↔ ∃ g ∈ reconcile fields selected, g.visible = true ∧ g.status = .stale ∧ g.id = id := by
  rcases ensureFresh_cases fields selected with ⟨hnone, hok⟩ | ⟨hsome, ids, herror, hincreasing, hids⟩
  · rw [hok]
    constructor
    · refine iff_of_true rfl fun g hg hvisible hstatus => ?_
      have hmem := mem_staleFields.mpr ⟨hg, hvisible, hstatus⟩
      rw [hnone] at hmem
      exact List.not_mem_nil hmem
    · intro e he
      cases he
  · rw [herror]
    constructor
    · constructor
      · intro hok
        cases hok
      · intro hall
        refine absurd ?_ hsome
        rw [List.eq_nil_iff_forall_not_mem]
        intro g hg
        obtain ⟨hmem, hvisible, hstatus⟩ := mem_staleFields.mp hg
        exact hall g hmem hvisible hstatus
    · intro e he
      cases he
      refine ⟨ids, rfl, hincreasing, fun id => ?_⟩
      rw [hids]
      simp only [mem_staleFields, and_assoc]

/-- Reconciling fields with one selection after another leaves all of each field but its status as it
was, and the fields in their order.  A field is stale exactly when it depends on a model outside the last
selection; what was selected before does not show.  A field whose status is already right is handed back
itself, and no other is, so that reconciling again with the same selection changes nothing; and no larger
selection makes a field stale that fits a smaller one.  The check before a query refuses the selection
exactly when a visible field is stale, and names these fields, each once and in order. -/
theorem status_of_last_selection (fields : List DerivedField) (history : List (List String))
    (selected : List String) :
    let before := reconcileAll fields history
    let after := reconcile before selected
    List.Forall₂ (fun f g => g = { f with status := g.status } ∧ (g.status = .stale ↔ f.Outside selected))
      fields after ∧
    after = reconcile fields selected ∧
    (∀ f ∈ before, ((f.status = .stale ↔ f.Outside selected) ↔ f.changes selected = false) ∧
      (f.changes selected = false ↔ f.reconciled selected = f)) ∧
    (reconcile after selected = after ∧ ∀ g ∈ after, g.changes selected = false) ∧
    (∀ larger, selected ⊆ larger →
      List.Forall₂ (fun g h => g.status = .active → h.status = .active) after (reconcile after larger)) ∧
    ((ensureFresh before selected = .ok () ↔ ∀ g ∈ after, g.visible = true → g.status ≠ .stale) ∧
      ∀ e, ensureFresh before selected = .error e → ∃ ids, e = .staleFields ids ∧ ids.Pairwise (· < ·) ∧
        ∀ id, id ∈ ids ↔ ∃ g ∈ after, g.visible = true ∧ g.status = .stale ∧ g.id = id) := by
  intro before after
  have hafter : after = reconcile fields selected := reconcile_reconcileAll fields history selected
  have hagain (larger : List String) : reconcile after larger = reconcile fields larger := by
    rw [hafter, reconcile_reconcile]
  refine ⟨?_, hafter, fun f _ => ⟨?_, ?_⟩, ⟨?_, ?_⟩, fun larger hsubset => ?_, ?_⟩
  · rw [hafter, reconcile, List.forall₂_map_right_iff, List.forall₂_same]
    intro f _
    rw [reconciled_eq]
    exact ⟨rfl, expectedStatus_eq_stale_iff f selected⟩
  · rw [changes_eq_false_iff, expectedStatus_eq_status_iff]
  · rw [changes_eq_false_iff, reconciled_eq_self_iff]
  · rw [hagain, hafter]
  · intro g hg
    obtain ⟨f, -, rfl⟩ := List.mem_map.mp hg
    exact changes_reconciled f selected
  · rw [hagain, hafter, reconcile, reconcile, List.forall₂_map_left_iff, List.forall₂_map_right_iff, List.forall₂_same]
    intro f _ hactive
    rw [reconciled_eq] at hactive ⊢
    exact expectedStatus_eq_active hsubset hactive
  · exact ensureFresh_outcome before selected

end AdhocReport.DerivedField
