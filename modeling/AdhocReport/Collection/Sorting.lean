set_option autoImplicit false

/-!
# Collections: sorting and repeats

Answers list sets in order of code points and keep the first of repeated entries.  The sort is by
insertion and stable: entries with equal keys keep their order.
-/

namespace AdhocReport.Collection

variable {α : Type}

/-- Put `x` before the first entry that is not below it. -/
def insertBy (le : α → α → Bool) (x : α) : List α → List α
  | [] => [x]
  | y :: ys => if le x y then x :: y :: ys else y :: insertBy le x ys

/-- Sort by a total order; entries that compare equal keep their order. -/
def sortBy (le : α → α → Bool) (xs : List α) : List α := xs.foldr (insertBy le) []

theorem perm_insertBy (le : α → α → Bool) (x : α) (ys : List α) :
    (insertBy le x ys).Perm (x :: ys) := by
  induction ys with
  | nil => exact .refl _
  | cons y ys ih =>
    unfold insertBy
    split
    · exact .refl _
    · exact (ih.cons y).trans (.swap x y ys)

/-- Sorting keeps the entries and their multiplicities. -/
theorem perm_sortBy (le : α → α → Bool) (xs : List α) : (sortBy le xs).Perm xs := by
  induction xs with
  | nil => exact .refl _
  | cons x xs ih => exact (perm_insertBy le x _).trans (ih.cons x)

/-- Keep the first of each group of equal entries. -/
def distinct [DecidableEq α] : List α → List α
  | [] => []
  | x :: xs => x :: (distinct xs).filter (fun y => y ≠ x)

theorem mem_distinct [DecidableEq α] {x : α} {xs : List α} : x ∈ distinct xs ↔ x ∈ xs := by
  induction xs with
  | nil => simp [distinct]
  | cons y ys ih =>
    by_cases h : x = y <;> simp [distinct, ih, h]

theorem nodup_distinct [DecidableEq α] (xs : List α) : (distinct xs).Nodup := by
  induction xs with
  | nil => simp [distinct]
  | cons y ys ih =>
    refine List.nodup_cons.mpr ⟨by simp, ?_⟩
    exact List.Pairwise.filter _ ih

/-- The order of texts by code points. -/
def textLe (a b : String) : Bool := !(decide (b < a))

/-- The texts in code point order, each once. -/
def sortedSet (xs : List String) : List String := sortBy textLe (distinct xs)

theorem mem_sortedSet {x : String} {xs : List String} : x ∈ sortedSet xs ↔ x ∈ xs := by
  unfold sortedSet
  rw [(perm_sortBy textLe _).mem_iff, mem_distinct]

end AdhocReport.Collection
