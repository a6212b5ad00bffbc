import AdhocReport.Sql.Selection
import Mathlib.Data.Multiset.Bind
set_option autoImplicit false

/-!
# Sources and their rows

A source that joins a selection grows by one new table per join, whose equality relates the new table to
those joined before.  If all its joins are inner, its rows are the combinations of one record per table
that satisfy all of its equalities, whatever the order in which the tables were joined.
-/

namespace AdhocReport.Sql

/-! ## Growing sources -/

/-- The equalities of the joins of a source, the inner ones first. -/
def Source.equalities : Source → List Equality
  | .table _ _ => []
  | .join _ l r on => l.equalities ++ r.equalities ++ [on]

/-- The kinds of the joins of a source, in the order of their equalities. -/
def Source.kinds : Source → List JoinKind
  | .table _ _ => []
  | .join kind l r _ => l.kinds ++ r.kinds ++ [kind]

/-- The equality relates a column of one model to a column of one of the others. -/
def Equality.Relates (e : Equality) (model : String) (others : List String) : Prop :=
  (e.left.model = model ∧ e.right.model ∈ others) ∨ (e.right.model = model ∧ e.left.model ∈ others)

/-- Every join of the source attaches one new table to the models joined before it.  The new table comes
first only where its rows are all kept. -/
inductive Source.Grown : Source → Prop
  | table (model : String) (table : Schema.Table) : Grown (.table model table)
  | right {kind : JoinKind} {before : Source} {model : String} {table : Schema.Table} {on : Equality} :
      Grown before → model ∉ before.models → on.Relates model before.models →
      Grown (.join kind before (.table model table) on)
  | left {before : Source} {model : String} {table : Schema.Table} {on : Equality} :
      Grown before → model ∉ before.models → on.Relates model before.models →
      Grown (.join .left (.table model table) before on)

/-- A source has one equality less than it has tables. -/
theorem Source.Grown.length_equalities {s : Source} (h : s.Grown) :
    s.equalities.length + 1 = s.models.length := by
  induction h with
  | table => rfl
  | right _ _ _ ih =>
    simp only [equalities, models, List.append_nil, List.length_append, List.length_singleton] at ih ⊢
    omega
  | left _ _ _ ih =>
    simp only [equalities, models, List.nil_append, List.length_append, List.length_singleton] at ih ⊢
    omega

theorem Equality.Relates.of_perm {e : Equality} {model : String} {others others' : List String}
    (h : e.Relates model others) (hperm : others.Perm others') : e.Relates model others' :=
  h.imp (fun h => ⟨h.1, hperm.subset h.2⟩) fun h => ⟨h.1, hperm.subset h.2⟩

/-! ## Combinations of records -/

/-- The row with another record for a model. -/
def Row.put (r : Row) (model : String) (rec : Record) : Row := fun m => if m = model then rec else r m

theorem Row.put_comm (r : Row) {m n : String} (h : m ≠ n) (a b : Record) :
    (r.put m a).put n b = (r.put n b).put m a := by
  funext k
  unfold Row.put
  by_cases hn : k = n
  · subst hn
    simp [Ne.symm h]
  · simp [hn]

/-- All combinations of one record per table. -/
def combinations (content : Content) : List (String × Schema.Table) → Multiset Row
  | [] => {Row.missing}
  | (m, t) :: rest =>
    (combinations content rest).bind fun r => (content t.name : Multiset Record).map (r.put m)

variable {content : Content}

/-- The order of the tables does not matter. -/
theorem combinations_perm {ts ts' : List (String × Schema.Table)} (h : ts.Perm ts')
    (hnodup : (ts.map (·.1)).Nodup) : combinations content ts = combinations content ts' := by
  induction h with
  | nil => rfl
  | cons p _ ih =>
    rw [List.map_cons, List.nodup_cons] at hnodup
    rw [combinations, combinations, ih hnodup.2]
  | swap p q ts =>
    obtain ⟨m, t⟩ := p
    obtain ⟨n, u⟩ := q
    have hne : m ≠ n := by
      intro h
      simp [h] at hnodup
    simp only [combinations, Multiset.bind_assoc, Multiset.bind_map]
    refine Multiset.bind_congr fun r _ => ?_
    rw [Multiset.bind_map_comm]
    simp only [r.put_comm hne]
  | trans h _ ih ih' =>
    rw [ih hnodup, ih' ((h.map _).nodup_iff.mp hnodup)]

/-! ## Rows of inner joins -/

/-- An equality does not look at the records of other models. -/
theorem Equality.holds_put {e : Equality} {model : String} {rec : Record} {r : Row}
    (hl : e.left.model ≠ model) (hr : e.right.model ≠ model) : e.holds (r.put model rec) = e.holds r := by
  simp [Equality.holds, ColumnUse.value, Row.put, hl, hr]

/-- An equality that relates a new model to others looks at models of the grown source only. -/
theorem Equality.Relates.mem {e : Equality} {model : String} {others : List String}
    (h : e.Relates model others) : e.left.model ∈ model :: others ∧ e.right.model ∈ model :: others := by
  rcases h with ⟨hmodel, hother⟩ | ⟨hmodel, hother⟩
  · exact ⟨by simp [hmodel], List.mem_cons_of_mem _ hother⟩
  · exact ⟨List.mem_cons_of_mem _ hother, by simp [hmodel]⟩

theorem Source.Grown.mem_models {s : Source} (h : s.Grown) :
    ∀ e ∈ s.equalities, e.left.model ∈ s.models ∧ e.right.model ∈ s.models := by
  induction h with
  | table => simp [equalities]
  | @right _ before model _ on _ _ hrelates ih =>
    have hmodels : (model :: before.models).Perm (before.models ++ [model]) :=
      (List.perm_append_singleton model before.models).symm
    intro e he
    simp only [equalities, List.append_nil, List.mem_append, List.mem_singleton] at he
    rcases he with he | rfl
    · exact ⟨List.mem_append_left _ (ih e he).1, List.mem_append_left _ (ih e he).2⟩
    · exact ⟨hmodels.subset hrelates.mem.1, hmodels.subset hrelates.mem.2⟩
  | left _ _ hrelates ih =>
    intro e he
    simp only [equalities, List.nil_append, List.mem_append, List.mem_singleton] at he
    rcases he with he | rfl
    · exact ⟨List.mem_cons_of_mem _ (ih e he).1, List.mem_cons_of_mem _ (ih e he).2⟩
    · exact hrelates.mem

theorem Source.tables_fst (s : Source) : s.tables.map (·.1) = s.models := by
  induction s with
  | table => rfl
  | join _ l r _ ihl ihr => rw [tables, models, List.map_append, ihl, ihr]

theorem Source.Grown.nodup {s : Source} (h : s.Grown) : s.models.Nodup := by
  induction h with
  | table => simp [models]
  | right _ hmodel _ ih =>
    have hconcat := List.Nodup.concat hmodel ih
    simpa [models] using hconcat
  | left _ hmodel _ ih => exact List.nodup_cons.mpr ⟨hmodel, ih⟩

theorem merge_single (a : Row) (model : String) (rec : Record) :
    Row.merge [model] a (Row.single model rec) = a.put model rec := by
  funext m
  by_cases h : m = model <;> simp [Row.merge, Row.single, Row.put, h]

/-- Joining one table to rows combines each of them with each record and keeps what satisfies the
equality. -/
theorem rows_inner (before : Source) (model : String) (table : Schema.Table) (on : Equality) :
    ((Source.join .inner before (.table model table) on).rows content : Multiset Row) =
      ((before.rows content : Multiset Row).bind fun a =>
        (content table.name : Multiset Record).map (a.put model)).filter fun r => on.holds r = true := by
  have hmatched : ∀ a : Row, (matched [model] on.holds a ((content table.name).map (Row.single model)) :
      Multiset Row) =
        ((content table.name : Multiset Record).map (a.put model)).filter fun r => on.holds r = true := by
    intro a
    simp only [matched, List.map_map, Multiset.map_coe, Multiset.filter_coe, Bool.decide_eq_true]
    congr 3
    funext rec
    exact merge_single a model rec
  rw [Multiset.filter_bind]
  simp only [← hmatched]
  exact (Multiset.coe_bind ..).symm

/-- The rows of inner joins are the combinations that satisfy all equalities. -/
theorem rows_eq_combinations {s : Source} (h : s.Grown) (hinner : ∀ kind ∈ s.kinds, kind = .inner) :
    (s.rows content : Multiset Row) =
      (combinations content s.tables).filter fun r => ∀ e ∈ s.equalities, e.holds r = true := by
  induction h with
  | table model table =>
    simp only [Source.rows, Source.tables, Source.equalities, combinations, Multiset.singleton_bind,
      List.not_mem_nil, false_imp_iff, implies_true, Multiset.filter_true, Multiset.map_coe]
    rfl
  | @right kind before model table on hgrown hmodel hrelates ih =>
    obtain rfl : kind = .inner := hinner kind (by simp [Source.kinds])
    have hbefore := ih fun k hk => hinner k (by simp [Source.kinds, hk])
    have htables : (before.tables ++ [(model, table)]).Perm ((model, table) :: before.tables) :=
      List.perm_append_singleton ..
    have hnodup : ((before.tables ++ [(model, table)]).map (·.1)).Nodup := by
      have hgrown' : (Source.join .inner before (.table model table) on).Grown :=
        .right hgrown hmodel hrelates
      have hmodels := hgrown'.nodup
      rwa [← Source.tables_fst] at hmodels
    -- the new record decides nothing about the equalities of the tables joined before
    have hput : ∀ (a : Row) (rec : Record), (∀ e ∈ before.equalities, e.holds (a.put model rec) = true) ↔
        ∀ e ∈ before.equalities, e.holds a = true := by
      intro a rec
      refine forall₂_congr fun e he => ?_
      obtain ⟨hl, hr⟩ := hgrown.mem_models e he
      rw [Equality.holds_put (ne_of_mem_of_not_mem hl hmodel) (ne_of_mem_of_not_mem hr hmodel)]
    rw [rows_inner, hbefore, Source.tables, Source.tables, combinations_perm htables hnodup, combinations,
      Multiset.bind_filter, Multiset.filter_bind, Multiset.filter_bind]
    refine Multiset.bind_congr fun a _ => ?_
    by_cases hall : ∀ e ∈ before.equalities, e.holds a = true
    · rw [if_pos hall]
      refine Multiset.filter_congr fun r hr => ?_
      obtain ⟨rec, -, rfl⟩ := Multiset.mem_map.mp hr
      have hearlier := (hput a rec).mpr hall
      simp only [Source.equalities, List.append_nil, List.mem_append, List.mem_singleton, or_imp,
        forall_and, forall_eq]
      exact ⟨fun hon => ⟨hearlier, hon⟩, fun h => h.2⟩
    · rw [if_neg hall, Multiset.filter_zero]
      refine (Multiset.filter_eq_nil.mpr fun r hr hholds => ?_).symm
      obtain ⟨rec, -, rfl⟩ := Multiset.mem_map.mp hr
      exact hall ((hput a rec).mp fun e he => hholds e (by simp [Source.equalities, he]))
  | left => exact absurd (hinner .left (by simp [Source.kinds])) (by decide)

end AdhocReport.Sql
