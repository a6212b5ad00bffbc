import AdhocReport.Proofs.Query.Joined
set_option autoImplicit false

/-!
# The rows of a joined selection

For inner joins the order in which a plan attaches models, and which joins it leaves as conditions,
do not show in the rows: they are the combinations of one record per selected model that satisfy every
join.  So the order of the joins and of the models does not matter.
-/

namespace AdhocReport.Sql

/-- A number that is read from a text is never missing. -/
theorem isNull_readNumber (cs : List Char) : (readNumber cs).value.isNull = false := by
  unfold readNumber
  simp only [apply_ite NumberText.value, apply_ite Value.isNull]
  simp only [Value.isNull, ite_self]

theorem isNull_comparable (asTexts : Bool) (v : Value) : (comparable asTexts v).isNull = v.isNull := by
  cases asTexts with
  | true => cases v <;> rfl
  | false =>
    cases v with
    | text s =>
      simp only [comparable, Value.asNumeric, Bool.false_eq_true, if_false]
      split
      · exact isNull_readNumber s.toList
      · rfl
    | _ => rfl

/-- Both sides of an equality have values in a row, and the values are equal: as texts between two
columns of texts, else as numbers where they are numbers. -/
def Equality.Matches (e : Equality) (r : Row) : Prop :=
  (e.left.value r).isNull = false ∧ (e.right.value r).isNull = false ∧
    (comparable (holdsTexts e.left.column.type && holdsTexts e.right.column.type) (e.left.value r)).order
      (comparable (holdsTexts e.left.column.type && holdsTexts e.right.column.type) (e.right.value r)) = .eq

instance (e : Equality) (r : Row) : Decidable (e.Matches r) := inferInstanceAs (Decidable (_ ∧ _ ∧ _))

/-- A missing value equals nothing, not even another missing value. -/
theorem Equality.holds_iff_matches {e : Equality} {r : Row} : e.holds r = true ↔ e.Matches r := by
  unfold Equality.holds Equality.Matches columnCompare valuesCompare Value.compare?
  rw [isNull_comparable, isNull_comparable]
  cases hl : (e.left.value r).isNull <;> cases hr : (e.right.value r).isNull <;> simp
  generalize (comparable _ (e.left.value r)).order _ = o
  cases o <;> decide

end AdhocReport.Sql

namespace AdhocReport.Query

open AdhocReport.Sql AdhocReport.Join AdhocReport.Collection
open Outcome (bind_eq_ok exists_mapM_eq_ok)

variable {t : Target} {s s' : Scope} {models models' : List String} {joins joins' : List Join.Condition}
  {first : String}

/-- The rows of the source that satisfy the conditions of the joins that close cycles. -/
def Joined.rows (acc : Joined) (content : Content) : List Sql.Row :=
  (acc.source.rows content).filter fun r => acc.conditions.all fun e => e.holds r

/-- A row satisfies a join whose fields are known. -/
def Scope.Satisfies (s : Scope) (j : Join.Condition) (r : Sql.Row) : Prop :=
  match s.equality j with
  | .ok e => e.Matches r
  | .error _ => False

instance (s : Scope) (j : Join.Condition) (r : Sql.Row) : Decidable (s.Satisfies j r) := by
  unfold Scope.Satisfies
  split <;> infer_instance

theorem Scope.satisfies_of_equality {j : Join.Condition} {e : Equality} (h : s.equality j = .ok e)
    {r : Sql.Row} :
    s.Satisfies j r ↔ e.holds r = true := by
  rw [Equality.holds_iff_matches, Scope.Satisfies, h]

theorem Scope.Writes.forall_holds {js : List Join.Condition} {es : List Equality} (h : s.Writes js es)
    {r : Sql.Row} : (∀ e ∈ es, e.holds r = true) ↔ ∀ j ∈ js, s.Satisfies j r := by
  induction h with
  | nil => simp
  | cons he _ ih => simp [ih, Scope.satisfies_of_equality he]

/-! ## Tables of a selection -/

theorem Scope.mem_tables (h : t.scope models = .ok s) {p : String × Schema.Table} :
    p ∈ s.tables ↔ s.tables.lookup p.1 = some p.2 := by
  have htables := (Target.tables_of_scope h).2
  have hmem : p ∈ s.tables ↔ ∃ m ∈ models, t.table m = .ok p := by
    clear h
    generalize s.tables = tables at htables ⊢
    induction htables with
    | nil => simp
    | cons hq _ ih => simp [ih, hq, eq_comm]
  rw [hmem, Scope.lookup_tables h]
  constructor
  · rintro ⟨m, hm, hp⟩
    obtain rfl : p.1 = m := t.table_fst hp
    exact ⟨hm, hp⟩
  · exact fun hp => ⟨p.1, hp.1, hp.2⟩

theorem Scope.nodup_tables (h : t.scope models = .ok s) : ((distinct s.tables).map (·.1)).Nodup := by
  refine List.Nodup.map_on (fun p hp q hq hpq => ?_) (nodup_distinct _)
  have hp' := (Scope.mem_tables h).mp (mem_distinct.mp hp)
  have hq' := (Scope.mem_tables h).mp (mem_distinct.mp hq)
  rw [hpq, hq'] at hp'
  exact Prod.ext hpq (Option.some.inj hp').symm

/-- The source of a joined selection holds the tables of the selection. -/
theorem Builds.tables_perm {acc : Joined} {on closing : List Join.Condition} (hscope : t.scope models = .ok s)
    (h : Builds s (distinct models) acc on closing) : acc.source.tables.Perm (distinct s.tables) := by
  have hnodup : acc.source.tables.Nodup := by
    have hmodels := h.grown.nodup
    rw [← Source.tables_fst] at hmodels
    exact hmodels.of_map
  refine (List.perm_ext_iff_of_nodup hnodup (nodup_distinct _)).mpr fun p => ?_
  rw [mem_distinct, Scope.mem_tables hscope]
  constructor
  · exact h.tables p
  · intro hp
    have hmodel : p.1 ∈ acc.source.tables.map (·.1) := by
      rw [Source.tables_fst]
      exact h.models.symm.subset (mem_distinct.mpr ((Scope.lookup_tables hscope _ _).mp hp).1)
    obtain ⟨q, hq, hqp⟩ := List.mem_map.mp hmodel
    have hsame := h.tables q hq
    rw [hqp, hp] at hsame
    have hpq : p = q := Prod.ext hqp.symm (Option.some.inj hsame)
    rwa [hpq]

/-- The tables of a selection depend on which models are selected only. -/
theorem Scope.lookup_eq (h : t.scope models = .ok s) (h' : t.scope models' = .ok s')
    (hmodels : ∀ m, m ∈ models' ↔ m ∈ models) (m : String) : s'.tables.lookup m = s.tables.lookup m := by
  refine Option.ext fun table => ?_
  rw [Scope.lookup_tables h', Scope.lookup_tables h, hmodels]

theorem Scope.equality_eq (h : t.scope models = .ok s) (h' : t.scope models' = .ok s')
    (hmodels : ∀ m, m ∈ models' ↔ m ∈ models) (j : Join.Condition) : s'.equality j = s.equality j := by
  have hregistry : s'.registry = s.registry :=
    (Target.tables_of_scope h').1.trans (Target.tables_of_scope h).1.symm
  simp only [Scope.equality, Scope.locate, Scope.lookup_eq h h' hmodels, hregistry]

theorem Scope.distinct_tables_perm (h : t.scope models = .ok s) (h' : t.scope models' = .ok s')
    (hmodels : ∀ m, m ∈ models' ↔ m ∈ models) : (distinct s'.tables).Perm (distinct s.tables) := by
  refine (List.perm_ext_iff_of_nodup (nodup_distinct _) (nodup_distinct _)).mpr fun p => ?_
  rw [mem_distinct, mem_distinct, Scope.mem_tables h', Scope.mem_tables h, Scope.lookup_eq h h' hmodels]

theorem Target.scope_of_mem (h : t.scope models = .ok s) (hmodels : ∀ m ∈ models', m ∈ models) :
    ∃ s', t.scope models' = .ok s' := by
  obtain ⟨tables, htables, -⟩ := bind_eq_ok.mp h
  have hall := exists_mapM_eq_ok.mp ⟨tables, htables⟩
  obtain ⟨tables', htables'⟩ := exists_mapM_eq_ok.mpr fun m hm => hall m (hmodels m hm)
  exact ⟨_, bind_eq_ok.mpr ⟨tables', htables', rfl⟩⟩

/-! ## Rows -/

/-- The rows of a connected selection over inner joins: one record per selected model, such that every
join between selected models is satisfied. -/
theorem Builds.rows_eq {acc : Joined} {on closing : List Join.Condition} (hscope : t.scope models = .ok s)
    (h : Builds s (distinct models) acc on closing) (hperm : (on ++ closing).Perm (usableJoins models joins))
    (hinner : ∀ j ∈ usableJoins models joins, j.kind = .inner) (content : Content) :
    (acc.rows content : Multiset Sql.Row) = (combinations content (distinct s.tables)).filter
      fun r => ∀ j ∈ usableJoins models joins, s.Satisfies j r := by
  have hkinds : ∀ kind ∈ acc.source.kinds, kind = .inner := by
    intro kind hkind
    rw [h.kinds] at hkind
    obtain ⟨j, hj, rfl⟩ := List.mem_map.mp hkind
    rw [hinner j (hperm.subset (List.mem_append_left _ hj))]
    rfl
  have htables : combinations content acc.source.tables = combinations content (distinct s.tables) := by
    refine combinations_perm (h.tables_perm hscope) ?_
    rw [Source.tables_fst]
    exact h.grown.nodup
  have hrows : (acc.rows content : Multiset Sql.Row) =
      (acc.source.rows content : Multiset Sql.Row).filter fun r => ∀ e ∈ acc.conditions, e.holds r = true := by
    rw [Joined.rows, Multiset.filter_coe]
    congr 2
    funext r
    rw [Bool.eq_iff_iff]
    simp
  rw [hrows, rows_eq_combinations h.grown hkinds, htables, Multiset.filter_filter]
  refine Multiset.filter_congr fun r _ => ?_
  rw [h.closed.forall_holds, h.attached.forall_holds]
  constructor
  · rintro ⟨hclosing, hon⟩ j hj
    rcases List.mem_append.mp (hperm.symm.subset hj) with hj | hj
    · exact hon j hj
    · exact hclosing j hj
  · intro hall
    exact ⟨fun j hj => hall j (hperm.subset (List.mem_append_right _ hj)),
      fun j hj => hall j (hperm.subset (List.mem_append_left _ hj))⟩

/-- Other orders of the models and of the joins leave the combinations that satisfy the joins. -/
theorem combinations_congr (h : t.scope models = .ok s) (h' : t.scope models' = .ok s')
    (hmodels : ∀ m, m ∈ models' ↔ m ∈ models) (hjoins : ∀ j, j ∈ joins' ↔ j ∈ joins)
    (content : Content) :
    ((combinations content (distinct s'.tables)).filter
        fun r => ∀ j ∈ usableJoins models' joins', s'.Satisfies j r) =
      (combinations content (distinct s.tables)).filter
        fun r => ∀ j ∈ usableJoins models joins, s.Satisfies j r := by
  rw [combinations_perm (Scope.distinct_tables_perm h h' hmodels) (Scope.nodup_tables h')]
  refine Multiset.filter_congr fun r _ => ?_
  simp only [mem_usableJoins, hmodels, hjoins, Scope.Satisfies, Scope.equality_eq h h' hmodels]

/-- Inner joins between the models of a connected selection give the combinations of one record per
selected model that satisfy every join, each as often as the tables hold it; a missing value satisfies
no join.  Other orders of the models and of the joins give the same rows. -/
theorem Scope.rows_of_inner_joins (hfirst : models.head? = some first) (hscope : t.scope models = .ok s)
    (hfields : ∀ j ∈ usableJoins models joins, ∃ e, s.equality j = .ok e)
    (hlinked : ∀ m ∈ models, Linked models (joins.map Join.Condition.models) first m)
    (hinner : ∀ j ∈ usableJoins models joins, j.kind = .inner) :
    ∃ acc, s.join models joins = .ok acc ∧
      (∀ content, (acc.rows content : Multiset Sql.Row) = (combinations content (distinct s.tables)).filter
        fun r => ∀ j ∈ usableJoins models joins, s.Satisfies j r) ∧
      ∀ models' joins', models'.Perm models → joins'.Perm joins →
        ∃ s' acc', t.scope models' = .ok s' ∧ s'.join models' joins' = .ok acc' ∧
          ∀ content, (acc'.rows content : Multiset Sql.Row) = acc.rows content := by
  obtain ⟨acc, on, closing, hacc, hbuilds, hperm⟩ :=
    Scope.join_of_connected hfirst hscope hfields hlinked
  have hrows := hbuilds.rows_eq hscope hperm hinner
  refine ⟨acc, hacc, hrows, fun models' joins' hmodels hjoins => ?_⟩
  have hmem : ∀ m, m ∈ models' ↔ m ∈ models := fun _ => hmodels.mem_iff
  have husable : ∀ j ∈ usableJoins models' joins', j ∈ usableJoins models joins := by
    intro j
    simp only [mem_usableJoins, hjoins.mem_iff, hmem, imp_self]
  obtain ⟨s', hscope'⟩ := Target.scope_of_mem hscope fun m hm => (hmem m).mp hm
  have hfields' : ∀ j ∈ usableJoins models' joins', ∃ e, s'.equality j = .ok e := by
    intro j hj
    rw [Scope.equality_eq hscope hscope' hmem]
    exact hfields j (husable j hj)
  obtain ⟨first', hfirst'⟩ : ∃ first', models'.head? = some first' := by
    refine Option.isSome_iff_exists.mp (List.isSome_head?.mpr (List.ne_nil_of_mem (a := first) ?_))
    exact (hmem first).mpr (List.mem_of_head? hfirst)
  have hlinked' : ∀ m ∈ models', Linked models' (joins'.map Join.Condition.models) first' m := by
    rw [linked_congr hmem fun _ => (hjoins.map _).mem_iff]
    intro m hm
    have hstart := hlinked first' ((hmem first').mp (List.mem_of_head? hfirst'))
    exact hstart.symm.trans (hlinked m ((hmem m).mp hm))
  obtain ⟨acc', on', closing', hacc', hbuilds', hperm'⟩ :=
    Scope.join_of_connected hfirst' hscope' hfields' hlinked'
  refine ⟨s', acc', hscope', hacc', fun content => ?_⟩
  rw [hbuilds'.rows_eq hscope' hperm' fun j hj => hinner j (husable j hj), hrows]
  exact combinations_congr hscope hscope' hmem (fun _ => hjoins.mem_iff) content

/-- Three models in a cycle of joins, one of them given twice, from either end. -/
theorem rows_of_inner_joins_cycle :
    let t := Target.keyed ["a", "b", "c"]
    let join (l r : String) : Join.Condition := ⟨none, ⟨l, "id"⟩, ⟨r, "id"⟩, .inner, none⟩
    let joins := [join "b" "c", join "a" "b", join "c" "a", join "a" "b"]
    ∃ s s' acc acc', t.scope ["a", "b", "c"] = .ok s ∧ t.scope ["c", "b", "a"] = .ok s' ∧
      s.join ["a", "b", "c"] joins = .ok acc ∧ s'.join ["c", "b", "a"] joins.reverse = .ok acc' ∧
      ∀ content,
        (acc.rows content : Multiset Sql.Row) = (combinations content (distinct s.tables)).filter
          (fun r => ∀ j ∈ joins, s.Satisfies j r) ∧
        (acc'.rows content : Multiset Sql.Row) = acc.rows content := by
  intro t join joins
  obtain ⟨s, hscope⟩ : ∃ s, t.scope ["a", "b", "c"] = .ok s := ⟨_, rfl⟩
  have husable : usableJoins ["a", "b", "c"] joins = joins := by decide
  have hfields : ∀ j ∈ usableJoins ["a", "b", "c"] joins, ∃ e, s.equality j = .ok e := by
    cases hscope
    intro j hj
    fin_cases hj <;> exact ⟨_, rfl⟩
  have hinner : ∀ j ∈ usableJoins ["a", "b", "c"] joins, j.kind = .inner := by decide
  obtain ⟨acc, hacc, hrows, hother⟩ :=
    Scope.rows_of_inner_joins rfl hscope hfields ((isConnected_iff rfl).mp (by decide)) hinner
  obtain ⟨s', acc', hscope', hacc', hrows'⟩ :=
    hother ["c", "b", "a"] joins.reverse (List.reverse_perm ["a", "b", "c"]) (List.reverse_perm joins)
  rw [husable] at hrows
  exact ⟨s, s', acc, acc', hscope, hscope', hacc, hacc', fun content => ⟨hrows content, hrows' content⟩⟩

end AdhocReport.Query
