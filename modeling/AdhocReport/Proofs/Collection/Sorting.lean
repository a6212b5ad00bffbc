import AdhocReport.Collection.Sorting
import Mathlib.Data.Finset.Card
import Mathlib.Data.List.Sort
import Mathlib.Data.String.Basic
set_option autoImplicit false

/-!
# Sorted lists

The sort by insertion puts a list in order, so a list of texts that is sorted and freed of repeats is
strictly increasing.  Together with its members this determines it.
-/

namespace AdhocReport.Collection

section

variable {α : Type} {le : α → α → Bool}

theorem pairwise_insertBy (htotal : ∀ a b, le a b = true ∨ le b a = true)
    (htrans : ∀ a b c, le a b = true → le b c = true → le a c = true) (x : α) {ys : List α}
    (h : ys.Pairwise fun a b => le a b = true) : (insertBy le x ys).Pairwise fun a b => le a b = true := by
  induction h with
  | nil => exact List.pairwise_singleton _ x
  | @cons y ys hy hys ih =>
    unfold insertBy
    split
    · rename_i hx
      refine (List.Pairwise.cons hy hys).cons fun z hz => ?_
      rcases List.mem_cons.mp hz with rfl | hz
      · exact hx
      · exact htrans x y z hx (hy z hz)
    · rename_i hx
      refine ih.cons fun z hz => ?_
      rcases List.mem_cons.mp ((perm_insertBy le x ys).mem_iff.mp hz) with rfl | hz
      · exact (htotal z y).resolve_left hx
      · exact hy z hz

/-- Sorting by a total order puts a list in order. -/
theorem pairwise_sortBy (htotal : ∀ a b, le a b = true ∨ le b a = true)
    (htrans : ∀ a b c, le a b = true → le b c = true → le a c = true) (xs : List α) :
    (sortBy le xs).Pairwise fun a b => le a b = true := by
  induction xs with
  | nil => exact .nil
  | cons x xs ih => exact pairwise_insertBy htotal htrans x ih

end

theorem textLe_iff {a b : String} : textLe a b = true ↔ a ≤ b := by
  rw [textLe, Bool.not_eq_true', decide_eq_false_iff_not]
  exact String.not_lt

theorem textLe_total (a b : String) : textLe a b = true ∨ textLe b a = true := by
  rw [textLe_iff, textLe_iff]
  exact String.le_total a b

theorem textLe_trans (a b c : String) (hab : textLe a b = true) (hbc : textLe b c = true) :
    textLe a c = true := by
  rw [textLe_iff] at hab hbc ⊢
  exact String.le_trans hab hbc

/-- A sorted set is strictly increasing. -/
theorem sortedSet_increasing (xs : List String) : (sortedSet xs).Pairwise (· < ·) := by
  have hsorted : (sortedSet xs).Pairwise fun a b => textLe a b = true :=
    pairwise_sortBy textLe_total textLe_trans (distinct xs)
  have hnodup : (sortedSet xs).Nodup := (perm_sortBy textLe _).nodup_iff.mpr (nodup_distinct xs)
  refine (hsorted.and hnodup).imp fun {a b} h => ?_
  rw [textLe_iff] at h
  exact String.not_le.mp fun hba => h.2 (String.le_antisymm h.1 hba)

/-- A sorted set does not depend on the order of the texts or on their repeats. -/
theorem sortedSet_congr {xs ys : List String} (h : ∀ x, x ∈ xs ↔ x ∈ ys) : sortedSet xs = sortedSet ys := by
  refine (sortedSet_increasing xs).eq_of_mem_iff (sortedSet_increasing ys) fun x => ?_
  rw [mem_sortedSet, mem_sortedSet, h]

theorem length_sortedSet (xs : List String) : (sortedSet xs).length = xs.toFinset.card := by
  have hset : (sortedSet xs).toFinset = xs.toFinset := by
    ext x
    rw [List.mem_toFinset, List.mem_toFinset, mem_sortedSet]
  rw [← hset, List.toFinset_card_of_nodup (sortedSet_increasing xs).nodup]

end AdhocReport.Collection
