import AdhocReport.Json.Reader
import AdhocReport.Proofs.Json.Canonical
import AdhocReport.Proofs.Collection.Sorting
set_option autoImplicit false

/-!
# Equal JSON values

Values are equal when they are built alike: lists agree place by place, and objects have the same keys
with equal values, whatever the order of their members.  An integer and a float are never equal.  Values
whose objects have no repeated key are equal exactly when they are the same with their keys sorted, hence
exactly when they have one canonical text.
-/

namespace AdhocReport.Json

/-- No object in the value has two members of one key. -/
inductive Keyed : Json → Prop
  | null : Keyed .null
  | bool (b : Bool) : Keyed (.bool b)
  | int (n : Int) : Keyed (.int n)
  | float (x : Float) : Keyed (.float x)
  | str (s : String) : Keyed (.str s)
  | arr {items : List Json} (heach : ∀ j ∈ items, Keyed j) : Keyed (.arr items)
  | obj {members : List (String × Json)} (hdistinct : (members.map Prod.fst).Nodup)
      (heach : ∀ m ∈ members, Keyed m.2) : Keyed (.obj members)

/-- The values are equal as JSON. -/
inductive Equal : Json → Json → Prop
  | null : Equal .null .null
  | bool (b : Bool) : Equal (.bool b) (.bool b)
  | int (n : Int) : Equal (.int n) (.int n)
  | float (x : Float) : Equal (.float x) (.float x)
  | str (s : String) : Equal (.str s) (.str s)
  | arr {items items' : List Json} (hlength : items.length = items'.length)
      (heach : ∀ (i : Nat) (h : i < items.length) (h' : i < items'.length), Equal items[i] items'[i]) :
    Equal (.arr items) (.arr items')
  /-- The order of the members says nothing. -/
  | obj {members members' : List (String × Json)}
      (hkeys : ∀ key, key ∈ members.map Prod.fst ↔ key ∈ members'.map Prod.fst)
      (heach : ∀ key v v', lookup members key = some v → lookup members' key = some v' → Equal v v') :
    Equal (.obj members) (.obj members')

/-! ## Sorted members -/

theorem map_fst_sortedMembers_perm (members : List (String × Json)) :
    ((sortedMembers members).map Prod.fst).Perm (members.map Prod.fst) := by
  rw [← map_fst_sortKeysMembers members]
  exact (Collection.perm_sortBy _ _).map _

/-- The keys of sorted members are in order. -/
theorem pairwise_sortedMembers (members : List (String × Json)) :
    ((sortedMembers members).map Prod.fst).Pairwise fun k k' => Collection.textLe k k' = true := by
  rw [List.pairwise_map]
  exact Collection.pairwise_sortBy (fun a b => Collection.textLe_total a.1 b.1)
    (fun a b c => Collection.textLe_trans a.1 b.1 c.1) _

/-- Distinct keys have one order. -/
theorem map_fst_sortedMembers_eq {members members' : List (String × Json)}
    (hdistinct : (members.map Prod.fst).Nodup) (hdistinct' : (members'.map Prod.fst).Nodup)
    (hkeys : ∀ key, key ∈ members.map Prod.fst ↔ key ∈ members'.map Prod.fst) :
    (sortedMembers members).map Prod.fst = (sortedMembers members').map Prod.fst := by
  have hsame : ((sortedMembers members).map Prod.fst).Perm ((sortedMembers members').map Prod.fst) :=
    (map_fst_sortedMembers_perm members).trans
      (((List.perm_ext_iff_of_nodup hdistinct hdistinct').mpr hkeys).trans
        (map_fst_sortedMembers_perm members').symm)
  refine hsame.eq_of_pairwise ?_ (pairwise_sortedMembers members) (pairwise_sortedMembers members')
  intro k k' _ _ hbelow habove
  exact String.le_antisymm (Collection.textLe_iff.mp hbelow) (Collection.textLe_iff.mp habove)

/-! ## Equal values -/

/-- What is the same with its keys sorted is equal. -/
theorem Keyed.equal_of_sortKeys {j j' : Json} (hkeyed : j.Keyed) (h : j.sortKeys = j'.sortKeys) :
    j.Equal j' := by
  induction hkeyed generalizing j' with
  | null => cases j' <;> cases h; exact .null
  | bool b => cases j' <;> cases h; exact .bool b
  | int n => cases j' <;> cases h; exact .int n
  | float x => cases j' <;> cases h; exact .float x
  | str s => cases j' <;> cases h; exact .str s
  | @arr items heach ih =>
    cases j' with
    | arr items' =>
      have hsame := Json.arr.inj h
      rw [sortKeysItems_eq_map, sortKeysItems_eq_map] at hsame
      refine .arr (by simpa using congrArg List.length hsame) fun i hbelow hbelow' => ?_
      refine ih _ (List.getElem_mem hbelow) ?_
      have hhere := congrArg (fun js => js[i]?) hsame
      simpa [hbelow, hbelow'] using hhere
    | _ => cases h
  | @obj members hdistinct heach ih =>
    cases j' with
    | obj members' =>
      have hfound : ∀ key, (lookup members key).map sortKeys = (lookup members' key).map sortKeys := by
        intro key
        rw [← lookup_sortedMembers, ← lookup_sortedMembers]
        exact congrArg (fun ms => lookup ms key) (Json.obj.inj h)
      refine .obj (fun key => ?_) fun key v v' hfirst hsecond => ?_
      · have hpresent := congrArg Option.isSome (hfound key)
        simp only [Option.isSome_map] at hpresent
        rw [mem_keys_iff, mem_keys_iff, ← Option.isSome_iff_exists, ← Option.isSome_iff_exists, hpresent]
      · have hsame := hfound key
        rw [hfirst, hsecond] at hsame
        exact ih (key, v) (mem_of_lookup hfirst) (Option.some.inj hsame)
    | _ => cases h

/-- Equal values are the same with their keys sorted. -/
theorem Equal.sortKeys_eq {j j' : Json} (hequal : j.Equal j') (hkeyed : j.Keyed) (hkeyed' : j'.Keyed) :
    j.sortKeys = j'.sortKeys := by
  induction hequal with
  | null => rfl
  | bool b => rfl
  | int n => rfl
  | float x => rfl
  | str s => rfl
  | @arr items items' hlength heach ih =>
    cases hkeyed with
    | arr hown =>
      cases hkeyed' with
      | arr hown' =>
        rw [sortKeys, sortKeys, sortKeysItems_eq_map, sortKeysItems_eq_map]
        congr 1
        refine List.ext_getElem (by simpa using hlength) fun i hbelow hbelow' => ?_
        rw [List.getElem_map, List.getElem_map]
        rw [List.length_map] at hbelow hbelow'
        exact ih i hbelow hbelow' (hown _ (List.getElem_mem hbelow)) (hown' _ (List.getElem_mem hbelow'))
  | @obj members members' hkeys heach ih =>
    cases hkeyed with
    | obj hdistinct hown =>
      cases hkeyed' with
      | obj hdistinct' hown' =>
        rw [sortKeys_obj, sortKeys_obj]
        congr 1
        refine eq_of_lookup (map_fst_sortedMembers_eq hdistinct hdistinct' hkeys)
          ((map_fst_sortedMembers_perm members).nodup_iff.mpr hdistinct) fun key => ?_
        rw [lookup_sortedMembers, lookup_sortedMembers]
        have hpresent := hkeys key
        rw [mem_keys_iff, mem_keys_iff] at hpresent
        cases hfirst : lookup members key with
        | none =>
          cases hsecond : lookup members' key with
          | none => rfl
          | some v' =>
            obtain ⟨v, hfound⟩ := hpresent.mpr ⟨v', hsecond⟩
            rw [hfirst] at hfound
            cases hfound
        | some v =>
          obtain ⟨v', hsecond⟩ := hpresent.mp ⟨v, hfirst⟩
          rw [hsecond, Option.map_some, Option.map_some,
            ih key v v' hfirst hsecond (hown _ (mem_of_lookup hfirst)) (hown' _ (mem_of_lookup hsecond))]

/-- The canonical text of values without repeated keys tells exactly which of them are equal. -/
theorem canonical_eq_iff_equal {j j' : Json} (hkeyed : j.Keyed) (hkeyed' : j'.Keyed) :
    j.canonical = j'.canonical ↔ j.Equal j' := by
  rw [canonical_eq_iff]
  exact ⟨hkeyed.equal_of_sortKeys, fun hequal => hequal.sortKeys_eq hkeyed hkeyed'⟩

theorem Keyed.equal_self {j : Json} (hkeyed : j.Keyed) : j.Equal j := hkeyed.equal_of_sortKeys rfl

/-! ## Values that are read -/

theorem mem_put {members : List (String × Json)} {key : String} {value : Json} {m : String × Json}
    (h : m ∈ put members key value) : m ∈ members ∨ m = (key, value) := by
  induction members with
  | nil => exact .inr (List.mem_singleton.mp h)
  | cons first rest ih =>
    obtain ⟨k, v⟩ := first
    unfold put at h
    split at h
    · rename_i hsame
      rcases List.mem_cons.mp h with hhere | hlater
      · exact .inr (hsame ▸ hhere)
      · exact .inl (List.mem_cons_of_mem _ hlater)
    · rcases List.mem_cons.mp h with hhere | hlater
      · exact .inl (hhere ▸ List.mem_cons_self)
      · exact (ih hlater).imp_left (List.mem_cons_of_mem _)

theorem nodup_put {members : List (String × Json)} (hdistinct : (members.map Prod.fst).Nodup) (key : String)
    (value : Json) : ((put members key value).map Prod.fst).Nodup := by
  induction members with
  | nil => simp [put]
  | cons first rest ih =>
    obtain ⟨k, v⟩ := first
    obtain ⟨hfresh, hothers⟩ := List.nodup_cons.mp hdistinct
    unfold put
    split
    · exact hdistinct
    · rename_i hdiffer
      refine List.nodup_cons.mpr ⟨fun hagain => ?_, ih hothers⟩
      obtain ⟨m, hmember, hname⟩ := List.mem_map.mp hagain
      rcases mem_put hmember with hhere | rfl
      · exact hfresh (List.mem_map.mpr ⟨m, hhere, hname⟩)
      · exact hdiffer hname.symm

/-- A repeated key keeps one value. -/
theorem keyed_ofMembers {members : List (String × Json)} (heach : ∀ m ∈ members, m.2.Keyed) :
    (ofMembers members).Keyed := by
  have hstep : ∀ acc : List (String × Json), (acc.map Prod.fst).Nodup → (∀ m ∈ acc, m.2.Keyed) →
      (Json.obj (members.foldl (fun acc m => put acc m.1 m.2) acc)).Keyed := by
    induction members with
    | nil => exact fun acc hdistinct hown => .obj hdistinct hown
    | cons m members ih =>
      intro acc hdistinct hown
      refine ih (fun m hmember => heach m (List.mem_cons_of_mem _ hmember)) _ (nodup_put hdistinct m.1 m.2) ?_
      intro n hmember
      rcases mem_put hmember with hhere | rfl
      · exact hown n hhere
      · exact heach m List.mem_cons_self
  exact hstep [] List.nodup_nil fun m hmember => absurd hmember List.not_mem_nil

theorem keyed_of_readMagnitude {negative : Bool} {cs : List Char} {r : Json × List Char}
    (h : readMagnitude negative cs = some r) : r.1.Keyed := by
  unfold readMagnitude at h
  dsimp only at h
  repeat' split at h
  all_goals cases h
  all_goals constructor

theorem keyed_of_readScalar {cs : List Char} {r : Json × List Char} (h : readScalar cs = some r) :
    r.1.Keyed := by
  unfold readScalar at h
  split at h
  · rename_i hnamed
    cases h
    obtain ⟨w, hmember, hdropped⟩ := List.exists_of_findSome?_eq_some hnamed
    obtain ⟨rest, -, rfl⟩ := Option.map_eq_some_iff.mp hdropped
    simp only [words, List.mem_cons, List.not_mem_nil, or_false] at hmember
    rcases hmember with rfl | rfl | rfl | rfl | rfl | rfl <;> constructor
  · split at h <;> exact keyed_of_readMagnitude h

/-- By the steps that the readers may take, for the three of them together. -/
theorem keyed_of_readers (fuel : Nat) :
    (∀ cs r, readValue fuel cs = some r → r.1.Keyed) ∧
    (∀ acc cs r, (∀ j ∈ acc, j.Keyed) → readItems fuel acc cs = some r → r.1.Keyed) ∧
    ∀ acc cs r, (∀ m ∈ acc, m.2.Keyed) → readMembers fuel acc cs = some r → r.1.Keyed := by
  induction fuel with
  | zero => exact ⟨fun _ _ h => (nomatch h), fun _ _ _ _ h => (nomatch h), fun _ _ _ _ h => (nomatch h)⟩
  | succ fuel ih =>
    obtain ⟨hvalue, hitems, hmembers⟩ := ih
    refine ⟨fun cs r h => ?_, fun acc cs r hown h => ?_, fun acc cs r hown h => ?_⟩
    · unfold readValue at h
      split at h
      · obtain ⟨s, -, hsame⟩ := Option.bind_eq_some_iff.mp h
        cases hsame
        exact .str _
      · split at h
        · cases h
          exact .arr fun j hmember => absurd hmember List.not_mem_nil
        · exact hitems _ _ r (fun j hmember => absurd hmember List.not_mem_nil) h
      · split at h
        · cases h
          exact .obj List.nodup_nil fun m hmember => absurd hmember List.not_mem_nil
        · exact hmembers _ _ r (fun m hmember => absurd hmember List.not_mem_nil) h
      · exact keyed_of_readScalar h
    · unfold readItems at h
      split at h
      · cases h
      · rename_i j rest hread
        have hown' : ∀ i ∈ j :: acc, i.Keyed := List.forall_mem_cons.mpr ⟨hvalue _ _ hread, hown⟩
        split at h
        · exact hitems _ _ r hown' h
        · cases h
          exact .arr fun i hmember => hown' i (List.mem_reverse.mp hmember)
        · cases h
    · unfold readMembers at h
      split at h
      · split at h
        · cases h
        · rename_i k rest hkey
          split at h
          · split at h
            · cases h
            · rename_i j rest' hread
              have hown' : ∀ m ∈ (k, j) :: acc, m.2.Keyed := List.forall_mem_cons.mpr ⟨hvalue _ _ hread, hown⟩
              split at h
              · exact hmembers _ _ r hown' h
              · cases h
                exact keyed_ofMembers fun m hmember => hown' m (List.mem_reverse.mp hmember)
              · cases h
          · cases h
      · cases h

/-- What is read from a text has no repeated keys. -/
theorem keyed_of_read? {s : String} {j : Json} (h : read? s = some j) : j.Keyed := by
  unfold read? at h
  dsimp only at h
  split at h
  · rename_i i rest hread
    split at h
    · cases h
      exact (keyed_of_readers _).1 _ _ hread
    · cases h
  · cases h

end AdhocReport.Json
