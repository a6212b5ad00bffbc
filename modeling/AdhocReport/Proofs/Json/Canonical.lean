import AdhocReport.Proofs.Json.Writer
import AdhocReport.Expression.Record
set_option autoImplicit false

/-!
# The canonical text of a value

Sorting the members of an object keeps what each key is looked up to, since it is stable and a lookup
takes the first member of a key.  The canonical text therefore tells all that lookups can find, and
with it the tree of a record and the number of its values.
-/

namespace AdhocReport

theorem Collection.textLe_false {a b : String} (h : Collection.textLe a b = false) : a ≠ b := by
  rintro rfl
  simp [Collection.textLe] at h

namespace Json

/-- Values have the same canonical text if and only if they are the same with their keys sorted. -/
theorem canonical_eq_iff {j j' : Json} : j.canonical = j'.canonical ↔ j.sortKeys = j'.sortKeys := by
  constructor
  · intro h
    exact write_injective compact_parts (String.ofList_injective h)
  · intro h
    rw [canonical, canonical, h]

/-! ## Lookups -/

theorem lookup_cons (k key : String) (v : Json) (members : List (String × Json)) :
    lookup ((k, v) :: members) key = if k = key then some v else lookup members key := by
  unfold lookup
  by_cases hsame : k = key
  · rw [List.find?_cons_of_pos (by simpa using hsame), if_pos hsame]
    rfl
  · rw [List.find?_cons_of_neg (by simpa using hsame), if_neg hsame]

/-- A key is among those of the members exactly when a lookup finds it. -/
theorem mem_keys_iff {members : List (String × Json)} {key : String} :
    key ∈ members.map Prod.fst ↔ ∃ v, lookup members key = some v := by
  induction members with
  | nil => simp [lookup]
  | cons m members ih =>
    obtain ⟨k, v⟩ := m
    rw [List.map_cons, List.mem_cons, lookup_cons, ih]
    by_cases hsame : k = key
    · simp [hsame]
    · simp [hsame, Ne.symm hsame]

theorem mem_of_lookup {members : List (String × Json)} {key : String} {v : Json}
    (h : lookup members key = some v) : (key, v) ∈ members := by
  obtain ⟨m, hfound, rfl⟩ := Option.map_eq_some_iff.mp h
  have hsame : m.1 = key := by simpa using List.find?_some hfound
  exact hsame ▸ List.mem_of_find?_eq_some hfound

/-- A member that is sorted in comes before the others of its key. -/
theorem lookup_insertBy (k key : String) (v : Json) (members : List (String × Json)) :
    lookup (Collection.insertBy (fun a b => Collection.textLe a.1 b.1) (k, v) members) key =
      if k = key then some v else lookup members key := by
  induction members with
  | nil => exact lookup_cons k key v []
  | cons m members ih =>
    obtain ⟨k', v'⟩ := m
    unfold Collection.insertBy
    split
    · exact lookup_cons k key v _
    · rename_i habove
      have hdiffer : k ≠ k' := Collection.textLe_false (Bool.not_eq_true _ ▸ habove)
      rw [lookup_cons, lookup_cons, ih]
      by_cases hsame : k = key
      · rw [if_pos hsame, if_neg (fun h => hdiffer (hsame.trans h.symm)), if_pos hsame]
      · rw [if_neg hsame, if_neg hsame]

theorem lookup_sortBy (members : List (String × Json)) (key : String) :
    lookup (Collection.sortBy (fun a b => Collection.textLe a.1 b.1) members) key = lookup members key := by
  induction members with
  | nil => rfl
  | cons m members ih =>
    obtain ⟨k, v⟩ := m
    have hstep := lookup_insertBy k key v
      (Collection.sortBy (fun a b => Collection.textLe a.1 b.1) members)
    rw [ih, ← lookup_cons] at hstep
    exact hstep

/-- Values are found as they were changed. -/
theorem lookup_map (f : Json → Json) (members : List (String × Json)) (key : String) :
    lookup (members.map fun m => (m.1, f m.2)) key = (lookup members key).map f := by
  induction members with
  | nil => rfl
  | cons m members ih =>
    obtain ⟨k, v⟩ := m
    rw [List.map_cons, lookup_cons, lookup_cons, ih]
    split <;> rfl

theorem sortKeysMembers_eq_map (members : List (String × Json)) :
    sortKeysMembers members = members.map fun m => (m.1, m.2.sortKeys) := by
  induction members with
  | nil => rfl
  | cons m members ih => rw [sortKeysMembers, ih, List.map_cons]

theorem lookup_sortKeysMembers (members : List (String × Json)) (key : String) :
    lookup (sortKeysMembers members) key = (lookup members key).map sortKeys := by
  rw [sortKeysMembers_eq_map, lookup_map]

theorem map_fst_sortKeysMembers (members : List (String × Json)) :
    (sortKeysMembers members).map Prod.fst = members.map Prod.fst := by
  rw [sortKeysMembers_eq_map, List.map_map]
  rfl

/-- The sorted members of an object. -/
def sortedMembers (members : List (String × Json)) : List (String × Json) :=
  Collection.sortBy (fun a b => Collection.textLe a.1 b.1) (sortKeysMembers members)

theorem sortKeys_obj (members : List (String × Json)) :
    (Json.obj members).sortKeys = .obj (sortedMembers members) := rfl

theorem lookup_sortedMembers (members : List (String × Json)) (key : String) :
    lookup (sortedMembers members) key = (lookup members key).map sortKeys := by
  rw [sortedMembers, lookup_sortBy, lookup_sortKeysMembers]

/-- Members with the same distinct keys in the same order are told by lookups. -/
theorem eq_of_lookup {members members' : List (String × Json)}
    (hkeys : members.map Prod.fst = members'.map Prod.fst) (hdistinct : (members.map Prod.fst).Nodup)
    (h : ∀ key, lookup members key = lookup members' key) : members = members' := by
  induction members generalizing members' with
  | nil => exact (List.map_eq_nil_iff.mp hkeys.symm).symm
  | cons m members ih =>
    obtain ⟨k, v⟩ := m
    cases members' with
    | nil => cases hkeys
    | cons m' members' =>
      obtain ⟨k', v'⟩ := m'
      obtain ⟨hfirst, hothers⟩ := List.cons.inj hkeys
      obtain ⟨hfresh, hdistinct⟩ := List.nodup_cons.mp hdistinct
      cases hfirst
      have hvalue := h k
      rw [lookup_cons, lookup_cons, if_pos rfl, if_pos rfl] at hvalue
      cases hvalue
      have habsent : ∀ {ms : List (String × Json)}, k ∉ ms.map Prod.fst → lookup ms k = none := by
        intro ms hother
        cases hfound : lookup ms k with
        | none => rfl
        | some v => exact absurd (mem_keys_iff.mpr ⟨v, hfound⟩) hother
      rw [ih hothers hdistinct]
      intro key
      have hstep := h key
      rw [lookup_cons, lookup_cons] at hstep
      by_cases hsame : k = key
      · subst hsame
        rw [habsent hfresh, habsent (hothers ▸ hfresh)]
      · rwa [if_neg hsame, if_neg hsame] at hstep

/-- Objects that have the same distinct keys in the same order, and are the same when sorted, agree
member by member. -/
theorem members_of_sortKeys {members members' : List (String × Json)}
    (h : (Json.obj members).sortKeys = (Json.obj members').sortKeys)
    (hkeys : members.map Prod.fst = members'.map Prod.fst) (hdistinct : (members.map Prod.fst).Nodup) :
    sortKeysMembers members = sortKeysMembers members' := by
  rw [sortKeys_obj, sortKeys_obj] at h
  refine eq_of_lookup (by rw [map_fst_sortKeysMembers, map_fst_sortKeysMembers, hkeys])
    (by rwa [map_fst_sortKeysMembers]) fun key => ?_
  rw [lookup_sortKeysMembers, ← lookup_sortedMembers, Json.obj.inj h, lookup_sortedMembers,
    lookup_sortKeysMembers]

/-! ## Lists -/

theorem sortKeysItems_eq_map (items : List Json) : sortKeysItems items = items.map sortKeys := by
  induction items with
  | nil => rfl
  | cons j items ih => rw [sortKeysItems, ih, List.map_cons]

/-- Lists that are the same when sorted have related parts in the same places. -/
theorem forall₂_of_sortKeys {α : Type} {write : α → Json} {R : α → α → Prop}
    (hparts : ∀ x y, (write x).sortKeys = (write y).sortKeys → R x y) {xs ys : List α}
    (h : (Json.arr (xs.map write)).sortKeys = (Json.arr (ys.map write)).sortKeys) : List.Forall₂ R xs ys := by
  have hsame := Json.arr.inj h
  rw [sortKeysItems_eq_map, sortKeysItems_eq_map] at hsame
  clear h
  induction xs generalizing ys with
  | nil =>
    cases ys with
    | nil => exact .nil
    | cons y ys => cases hsame
  | cons x xs ih =>
    cases ys with
    | nil => cases hsame
    | cons y ys =>
      obtain ⟨hfirst, hothers⟩ := List.cons.inj hsame
      exact .cons (hparts x y hfirst) (ih hothers)

/-- Lists of parts that are told by their sorted records are told by theirs. -/
theorem eq_of_sortKeys {α : Type} {write : α → Json}
    (hparts : ∀ x y, (write x).sortKeys = (write y).sortKeys → x = y) {xs ys : List α}
    (h : (Json.arr (xs.map write)).sortKeys = (Json.arr (ys.map write)).sortKeys) : xs = ys :=
  List.forall₂_eq_eq_eq ▸ forall₂_of_sortKeys hparts h

theorem ofTexts_of_sortKeys {xs ys : List String} (h : (ofTexts xs).sortKeys = (ofTexts ys).sortKeys) :
    xs = ys :=
  @eq_of_sortKeys String Json.str (fun _ _ hsame => Json.str.inj hsame) xs ys h

theorem ofText?_of_sortKeys {x y : Option String} (h : (ofText? x).sortKeys = (ofText? y).sortKeys) :
    x = y := by
  cases x <;> cases y <;> cases h <;> rfl

/-! ## Sizes -/

theorem sizeOfMembers_eq_sum (members : List (String × Json)) :
    sizeOfMembers members = (members.map fun m => m.2.size).sum := by
  induction members with
  | nil => rfl
  | cons m members ih =>
    obtain ⟨k, v⟩ := m
    rw [sizeOfMembers, ih, List.map_cons, List.sum_cons]

theorem sizeOfMembers_sortBy (members : List (String × Json)) :
    sizeOfMembers (Collection.sortBy (fun a b => Collection.textLe a.1 b.1) members) =
      sizeOfMembers members := by
  rw [sizeOfMembers_eq_sum, sizeOfMembers_eq_sum]
  exact ((Collection.perm_sortBy _ members).map _).sum_eq

mutual

theorem size_sortKeys (j : Json) : j.sortKeys.size = j.size := by
  cases j with
  | arr items => rw [sortKeys, size, size, sizeOfItems_sortKeys items]
  | obj members => rw [sortKeys, size, size, sizeOfMembers_sortBy, sizeOfMembers_sortKeys members]
  | _ => rfl
termination_by structural j

theorem sizeOfItems_sortKeys (items : List Json) : sizeOfItems (sortKeysItems items) = sizeOfItems items := by
  match items with
  | [] => rfl
  | j :: rest => rw [sortKeysItems, sizeOfItems, sizeOfItems, size_sortKeys j, sizeOfItems_sortKeys rest]
termination_by structural items

theorem sizeOfMembers_sortKeys (members : List (String × Json)) :
    sizeOfMembers (sortKeysMembers members) = sizeOfMembers members := by
  match members with
  | [] => rfl
  | (k, j) :: rest =>
    rw [sortKeysMembers, sizeOfMembers, sizeOfMembers, size_sortKeys j, sizeOfMembers_sortKeys rest]
termination_by structural members

end

end Json

end AdhocReport
