import AdhocReport.Proofs.Json.Canonical
set_option autoImplicit false

/-!
# Numbers that are not finite

A value whose form is free is dumped with null for the numbers that are not finite.  What is dumped holds
finite numbers only, a value of finite numbers is dumped as it is, and no member is lost or moved.
-/

namespace AdhocReport.Json

/-- Every number in the value is finite. -/
inductive IsFinite : Json → Prop
  | null : IsFinite .null
  | bool (b : Bool) : IsFinite (.bool b)
  | int (n : Int) : IsFinite (.int n)
  | float {x : Float} (hfinite : (x.isNaN || x.isInf) = false) : IsFinite (.float x)
  | str (s : String) : IsFinite (.str s)
  | arr {items : List Json} (heach : ∀ j ∈ items, IsFinite j) : IsFinite (.arr items)
  | obj {members : List (String × Json)} (heach : ∀ m ∈ members, IsFinite m.2) : IsFinite (.obj members)

theorem finiteItems_eq_map (items : List Json) : finiteItems items = items.map finite := by
  induction items with
  | nil => rfl
  | cons j rest ih => rw [finiteItems, ih, List.map_cons]

theorem finiteMembers_eq_map (members : List (String × Json)) :
    finiteMembers members = members.map fun m => (m.1, m.2.finite) := by
  induction members with
  | nil => rfl
  | cons m rest ih => rw [finiteMembers, ih, List.map_cons]

theorem lookup_finiteMembers (members : List (String × Json)) (key : String) :
    lookup (finiteMembers members) key = (lookup members key).map finite := by
  rw [finiteMembers_eq_map, lookup_map]

mutual

theorem isFinite_finite (j : Json) : j.finite.IsFinite := by
  cases j with
  | null => exact .null
  | bool b => exact .bool b
  | int n => exact .int n
  | float x =>
    by_cases hinfinite : (x.isNaN || x.isInf) = true
    · rw [finite, if_pos hinfinite]
      exact .null
    · rw [finite, if_neg hinfinite]
      exact .float (Bool.not_eq_true _ ▸ hinfinite)
  | str s => exact .str s
  | arr items => exact .arr (isFinite_of_mem_finiteItems items)
  | obj members => exact .obj (isFinite_of_mem_finiteMembers members)

theorem isFinite_of_mem_finiteItems (items : List Json) : ∀ j ∈ finiteItems items, j.IsFinite := by
  cases items with
  | nil => simp [finiteItems]
  | cons j rest =>
    simp only [finiteItems, List.forall_mem_cons]
    exact ⟨isFinite_finite j, isFinite_of_mem_finiteItems rest⟩

theorem isFinite_of_mem_finiteMembers (members : List (String × Json)) :
    ∀ m ∈ finiteMembers members, m.2.IsFinite := by
  cases members with
  | nil => simp [finiteMembers]
  | cons m rest =>
    obtain ⟨k, j⟩ := m
    simp only [finiteMembers, List.forall_mem_cons]
    exact ⟨isFinite_finite j, isFinite_of_mem_finiteMembers rest⟩

end

theorem IsFinite.finite_eq {j : Json} (h : j.IsFinite) : j.finite = j := by
  induction h with
  | null => rfl
  | bool b => rfl
  | int n => rfl
  | float hfinite => exact if_neg (Bool.eq_false_iff.mp hfinite)
  | str s => rfl
  | @arr items heach ih =>
    rw [finite, finiteItems_eq_map, List.map_congr_left ih, List.map_id']
  | @obj members heach ih =>
    rw [finite, finiteMembers_eq_map,
      List.map_congr_left fun m hmember => (Prod.ext rfl (ih m hmember) : (m.1, m.2.finite) = m), List.map_id']

/-- The values that are dumped as they are, are those of finite numbers. -/
theorem finite_eq_self_iff {j : Json} : j.finite = j ↔ j.IsFinite := by
  refine ⟨fun hsame => ?_, IsFinite.finite_eq⟩
  rw [← hsame]
  exact isFinite_finite j

theorem finite_finite (j : Json) : j.finite.finite = j.finite := (isFinite_finite j).finite_eq

mutual

theorem size_finite (j : Json) : j.finite.size = j.size := by
  cases j with
  | float x =>
    rw [finite]
    split <;> rfl
  | arr items => rw [finite, size, size, sizeOfItems_finite items]
  | obj members => rw [finite, size, size, sizeOfMembers_finite members]
  | _ => rfl

theorem sizeOfItems_finite (items : List Json) : sizeOfItems (finiteItems items) = sizeOfItems items := by
  cases items with
  | nil => rfl
  | cons j rest => rw [finiteItems, sizeOfItems, sizeOfItems, size_finite j, sizeOfItems_finite rest]

theorem sizeOfMembers_finite (members : List (String × Json)) :
    sizeOfMembers (finiteMembers members) = sizeOfMembers members := by
  cases members with
  | nil => rfl
  | cons m rest =>
    obtain ⟨k, j⟩ := m
    rw [finiteMembers, sizeOfMembers, sizeOfMembers, size_finite j, sizeOfMembers_finite rest]

end

end AdhocReport.Json
