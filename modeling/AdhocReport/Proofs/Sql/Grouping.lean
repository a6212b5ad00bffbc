import AdhocReport.Sql.Selection
import AdhocReport.Collection.Sorting
import Mathlib.Data.List.Induction
set_option autoImplicit false

/-!
# Groups of rows

A group has the rows that share its keys, and the keys are those of its first row.  Keys count as the same only
where the same values are missing, so the rows with a missing key can be grouped apart from the others, and their
groups are those that they form alone.
-/

namespace AdhocReport.Sql

theorem Value.isNull_of_same {a b : Value} (h : a.same b = true) : a.isNull = b.isNull := by
  cases a <;> cases b <;> first | rfl | cases h

theorem Value.isNull_iff {v : Value} : v.isNull = true ↔ v = .null := by
  cases v <;> simp [Value.isNull]

namespace Statement

/-- The keys count as the same. -/
def sameKeys (ks ls : List Value) : Bool := (List.zipWith Value.same ks ls).all id

section

variable {keys : Row → List Value} {rows : List Row} {g : List Value × List Row}

theorem mem_enlist {ks : List Value} {r : Row} {groups : List (List Value × List Row)} (h : g ∈ enlist ks r groups) :
    g = (ks, [r]) ∨ g ∈ groups ∨ ∃ rs, (g.1, rs) ∈ groups ∧ g.2 = rs ++ [r] := by
  induction groups with
  | nil => exact .inl (List.mem_singleton.mp h)
  | cons first rest ih =>
    unfold enlist at h
    split at h
    · rcases List.mem_cons.mp h with rfl | hrest
      · exact .inr (.inr ⟨first.2, List.mem_cons_self, rfl⟩)
      · exact .inr (.inl (List.mem_cons_of_mem _ hrest))
    · rcases List.mem_cons.mp h with rfl | hrest
      · exact .inr (.inl List.mem_cons_self)
      · rcases ih hrest with heq | hold | ⟨rs, hold, hrows⟩
        · exact .inl heq
        · exact .inr (.inl (List.mem_cons_of_mem _ hold))
        · exact .inr (.inr ⟨rs, List.mem_cons_of_mem _ hold, hrows⟩)

theorem grouped_concat (keys : Row → List Value) (rows : List Row) (r : Row) :
    grouped keys (rows ++ [r]) = enlist (keys r) r (grouped keys rows) := by
  rw [grouped, List.foldl_append]
  rfl

/-- A group has some of the rows, and the keys of the first of them. -/
theorem mem_grouped (h : g ∈ grouped keys rows) :
    g.2 ≠ [] ∧ (∀ r ∈ g.2, r ∈ rows) ∧ g.1 = keys (g.2.headD Row.missing) := by
  induction rows using List.reverseRecOn generalizing g with
  | nil => cases h
  | append_singleton rows r ih =>
    rw [grouped_concat] at h
    rcases mem_enlist h with rfl | hold | ⟨rs, hold, hrows⟩
    · exact ⟨List.cons_ne_nil _ _, fun _ hr => List.mem_append_right _ hr, rfl⟩
    · obtain ⟨hsome, hmem, hkeys⟩ := ih hold
      exact ⟨hsome, fun r' hr' => List.mem_append_left _ (hmem r' hr'), hkeys⟩
    · obtain ⟨hsome, hmem, hkeys⟩ := ih hold
      obtain ⟨first, rest, rfl⟩ := List.exists_cons_of_ne_nil hsome
      rw [hrows]
      refine ⟨List.cons_ne_nil _ _, fun r' hr' => ?_, hkeys⟩
      rcases List.mem_append.mp hr' with hin | hlast
      · exact List.mem_append_left _ (hmem r' hin)
      · exact List.mem_append_right _ hlast

theorem filter_enlist {p : List Value → Bool}
    (hp : ∀ r r', sameKeys (keys r) (keys r') = true → p (keys r) = p (keys r'))
    (r : Row) {groups : List (List Value × List Row)} (hgroups : ∀ g ∈ groups, ∃ r', g.1 = keys r') :
    (enlist (keys r) r groups).filter (fun g => p g.1) =
      if p (keys r) then enlist (keys r) r (groups.filter fun g => p g.1) else groups.filter fun g => p g.1 := by
  induction groups with
  | nil =>
    rw [enlist, List.filter_cons]
    rfl
  | cons first rest ih =>
    obtain ⟨ks, rs⟩ := first
    obtain ⟨⟨r', hks⟩, hrest⟩ := List.forall_mem_cons.mp hgroups
    dsimp only at hks
    rw [enlist]
    split
    · rename_i hsame
      have heq : p ks = p (keys r) := by
        rw [hks] at hsame ⊢
        exact hp r' r hsame
      rw [List.filter_cons, List.filter_cons]
      dsimp only
      rw [heq]
      split
      · rw [enlist, if_pos hsame]
      · rfl
    · rename_i hdiffer
      rw [List.filter_cons, List.filter_cons, ih hrest]
      dsimp only
      split
      · split
        · rw [enlist, if_neg hdiffer]
        · rfl
      · rfl

/-- Groups that are told apart by their keys are formed by their rows alone. -/
theorem filter_grouped {p : List Value → Bool}
    (hp : ∀ r r', sameKeys (keys r) (keys r') = true → p (keys r) = p (keys r')) (rows : List Row) :
    (grouped keys rows).filter (fun g => p g.1) = grouped keys (rows.filter fun r => p (keys r)) := by
  induction rows using List.reverseRecOn with
  | nil => rfl
  | append_singleton rows r ih =>
    rw [grouped_concat, filter_enlist hp r fun g hg => ⟨_, (mem_grouped hg).2.2⟩, ih, List.filter_append]
    cases hr : p (keys r) with
    | true => simp only [List.filter_cons, hr, List.filter_nil, if_true, grouped_concat]
    | false => simp only [List.filter_cons, hr, List.filter_nil, Bool.false_eq_true, if_false, List.append_nil]

theorem grouped_congr {keys keys' : Row → List Value} (h : ∀ r ∈ rows, keys r = keys' r) :
    grouped keys rows = grouped keys' rows := by
  induction rows using List.reverseRecOn with
  | nil => rfl
  | append_singleton rows r ih =>
    rw [grouped_concat, grouped_concat, h r (List.mem_append_right _ List.mem_cons_self),
      ih fun r' hr' => h r' (List.mem_append_left _ hr')]

/-- Rows with the same keys form a single group, if there are any. -/
theorem grouped_of_same {ks : List Value} (hks : sameKeys ks ks = true) (h : ∀ r ∈ rows, keys r = ks)
    (hsome : rows ≠ []) : grouped keys rows = [(ks, rows)] := by
  induction rows using List.reverseRecOn with
  | nil => exact absurd rfl hsome
  | append_singleton rows r ih =>
    rw [grouped_concat, h r (List.mem_append_right _ List.mem_cons_self)]
    by_cases hnone : rows = []
    · rw [hnone]
      rfl
    · rw [ih (fun r' hr' => h r' (List.mem_append_left _ hr')) hnone]
      exact if_pos hks

end

/-! ## The groups of a statement -/

section

variable {s : Statement}

/-- The values that rows are grouped by. -/
def keysOf (s : Statement) (r : Row) : List Value := s.keys.map fun o => o.value.value (.single r)

/-- The rows that share keys as a group. -/
def groupOf (g : List Value × List Row) : Group := ⟨g.2, g.2.headD Row.missing⟩

theorem perm_groupsOf (s : Statement) (rows : List Row) :
    (s.groupsOf rows).Perm ((grouped s.keysOf rows).map groupOf) := by
  unfold groupsOf
  dsimp only
  split
  · exact .refl _
  · exact (Collection.perm_sortBy _ _).map _

/-- The rows that satisfy the conditions, as they are read. -/
def readRows (s : Statement) (content : Content) : List Row := s.inReadingOrder (s.matchingRows content)

/-- The groups that give a result row each. -/
def resultGroups (s : Statement) (content : Content) : List Group := s.groups (s.readRows content)

/-- The groups without a value for a key. -/
def groupsWithout (s : Statement) (key : Scalar) (content : Content) : List Group :=
  (s.resultGroups content).filter fun g => (key.value g).isNull

theorem resultGroups_of_keys {pre post : List Output} {o : Output} (hkeys : s.keys = pre ++ o :: post)
    (content : Content) : s.resultGroups content = s.groupsOf (s.readRows content) := by
  rw [resultGroups, groups, hkeys]
  cases pre <;> rfl

/-- A group of the result has some of the rows that were read, the first of which shows its columns. -/
theorem mem_resultGroups {pre post : List Output} {o : Output} (hkeys : s.keys = pre ++ o :: post)
    {content : Content} {g : Group} (hg : g ∈ s.resultGroups content) :
    g.row ∈ g.rows ∧ ∀ r ∈ g.rows, r ∈ s.readRows content := by
  rw [resultGroups_of_keys hkeys] at hg
  obtain ⟨pair, hpair, rfl⟩ := List.mem_map.mp ((perm_groupsOf s _).mem_iff.mp hg)
  obtain ⟨hsome, hmem, -⟩ := mem_grouped hpair
  obtain ⟨first, rest, hrows⟩ := List.exists_cons_of_ne_nil hsome
  refine ⟨?_, hmem⟩
  simp only [groupOf, hrows]
  exact List.mem_cons_self

/-- The key has in a group the value that it has in the group's first row. -/
def ShownByRow (key : Scalar) : Prop := ∀ g : Group, key.value g = key.value (.single g.row)

theorem isNull_key_of_same {pre post : List Output} {o : Output} (hkeys : s.keys = pre ++ o :: post) {r r' : Row}
    (h : sameKeys (s.keysOf r) (s.keysOf r') = true) :
    (o.value.value (.single r)).isNull = (o.value.value (.single r')).isNull := by
  simp only [sameKeys, keysOf, hkeys, List.map_append, List.map_cons] at h
  rw [List.zipWith_append (by rw [List.length_map, List.length_map]), List.all_append, List.zipWith_cons_cons,
    List.all_cons, Bool.and_eq_true, Bool.and_eq_true] at h
  exact Value.isNull_of_same h.2.1

/-- The value of the key at a place. -/
def keyAt (n : ℕ) (ks : List Value) : Value := ks[n]?.getD .null

theorem keyAt_keysOf {pre post : List Output} {o : Output} (hkeys : s.keys = pre ++ o :: post) (r : Row) :
    keyAt pre.length (s.keysOf r) = o.value.value (.single r) := by
  simp [keyAt, keysOf, hkeys]

/-- The groups without a value for a key are those that the rows without one form alone. -/
theorem perm_groupsWithout {pre post : List Output} {o : Output} (hkeys : s.keys = pre ++ o :: post)
    (hshown : ShownByRow o.value) (content : Content) :
    (s.groupsWithout o.value content).Perm
      ((grouped s.keysOf ((s.readRows content).filter fun r => (o.value.value (.single r)).isNull)).map groupOf) := by
  have hrespects : ∀ r r', sameKeys (s.keysOf r) (s.keysOf r') = true →
      (keyAt pre.length (s.keysOf r)).isNull = (keyAt pre.length (s.keysOf r')).isNull := fun r r' hsame => by
    rw [keyAt_keysOf hkeys, keyAt_keysOf hkeys]
    exact isNull_key_of_same hkeys hsame
  have hall := @filter_grouped s.keysOf (fun ks => (keyAt pre.length ks).isNull) hrespects (s.readRows content)
  simp only [keyAt_keysOf hkeys] at hall
  rw [groupsWithout, resultGroups_of_keys hkeys]
  refine ((perm_groupsOf s _).filter _).trans ?_
  rw [List.filter_map, ← hall]
  refine .of_eq (congrArg _ (List.filter_congr fun g hg => ?_))
  obtain ⟨-, -, hfirst⟩ := mem_grouped hg
  rw [Function.comp_apply, hshown, hfirst, keyAt_keysOf hkeys]
  rfl

end

end Statement

end AdhocReport.Sql
