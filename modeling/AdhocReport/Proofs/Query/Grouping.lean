import AdhocReport.Proofs.Query.Compilation
import AdhocReport.Proofs.Query.Tree
set_option autoImplicit false

/-!
# Queries: grouping

A configuration with a metric or a dimension is compiled to a statement over groups.  Its dimensions are the
keys of the groups, and each column of any other output stands inside one aggregate: that of a metric, the
sum around a row field, or the sum of a column in an aggregate field.  Without metrics and dimensions there is
neither a key nor an aggregate.
-/

namespace AdhocReport

namespace Sql.Scalar

/-- No aggregate occurs in the expression. -/
def Plain (e : Scalar) : Prop := ∀ n p, Part n p e → n = 0 ∧ ¬ p.IsAggregate

/-- Each column of the expression stands inside exactly one aggregate, and no aggregate inside another. -/
def Summed (e : Scalar) : Prop := ∀ n p, Part n p e → (p.ShowsColumn → n = 1) ∧ (p.IsAggregate → n = 0)

theorem plain_column (c : ColumnUse) : (Scalar.column c).Plain := by
  intro n p h
  cases h
  exact ⟨rfl, id⟩

theorem plain_period (b : Query.TimeBucket) (c : ColumnUse) : (Scalar.period b c).Plain := by
  intro n p h
  cases h
  exact ⟨rfl, id⟩

theorem Plain.summed {e : Scalar} (h : e.Plain) (a : Query.Aggregation) : (Scalar.aggregate a e).Summed := by
  intro n p hp
  cases hp with
  | self => exact ⟨False.elim, fun _ => rfl⟩
  | aggregated hp =>
    obtain ⟨rfl, hnone⟩ := h _ _ hp
    exact ⟨fun _ => rfl, fun haggregate => absurd haggregate hnone⟩

end Sql.Scalar

namespace Query

open AdhocReport.Sql AdhocReport.Sql.Scalar
open Outcome (bind_eq_ok mapM_eq_ok exists_of_mem_right)

variable {t : Target} {sc : Scope} {d : Dialect}

/-! ## Compiled trees -/

theorem plain_of_scalarOf {column : FieldRef → Except Failure Scalar} (hcolumn : ∀ ref v, column ref = .ok v → v.Plain)
    {e : Expr} {v : Scalar} (hv : scalarOf d column e = .ok v) : v.Plain := by
  intro n p hp
  rcases (compiles_of_scalarOf e hv).comesFrom hp with ⟨ref, w, hw, hp⟩ | ⟨hn, -, haggregate⟩
  · exact hcolumn ref w hw n p hp
  · exact ⟨hn, haggregate⟩

theorem summed_of_scalarOf {column : FieldRef → Except Failure Scalar}
    (hcolumn : ∀ ref v, column ref = .ok v → v.Summed)
    {e : Expr} {v : Scalar} (hv : scalarOf d column e = .ok v) : v.Summed := by
  intro n p hp
  rcases (compiles_of_scalarOf e hv).comesFrom hp with ⟨ref, w, hw, hp⟩ | ⟨hn, hcolumn, -⟩
  · exact hcolumn ref w hw n p hp
  · exact ⟨fun hshows => absurd hshows hcolumn, fun _ => hn⟩

theorem Scope.scalar_eq_ok {ref : FieldRef} {v : Scalar} (h : sc.scalar ref = .ok v) : ∃ c, v = .column c := by
  obtain ⟨found, -, h⟩ := bind_eq_ok.mp h
  exact ⟨found.column, (Except.ok.inj h).symm⟩

theorem Scope.summed_eq_ok {ref : FieldRef} {v : Scalar} (h : sc.summed ref = .ok v) :
    ∃ c, v = .aggregate .sum (.column c) := by
  obtain ⟨found, -, h⟩ := bind_eq_ok.mp h
  exact ⟨found.column, (Except.ok.inj h).symm⟩

/-! ## Outputs -/

/-- What stands for a dimension: its column, or the period of the date in it. -/
def keyScalar (bucket : Option TimeBucket) (c : ColumnUse) : Scalar :=
  match bucket with
  | none => .column c
  | some b => .period b c

theorem plain_keyScalar (bucket : Option TimeBucket) (c : ColumnUse) : (keyScalar bucket c).Plain := by
  cases bucket with
  | none => exact plain_column c
  | some b => exact plain_period b c

theorem Scope.dimension_eq_ok {dim : Dimension} {o : Output} (h : sc.dimension dim = .ok o) :
    ∃ found, sc.locate dim.ref = .ok found ∧ o = ⟨dim.outputAlias, keyScalar dim.bucket found.column⟩ := by
  obtain ⟨found, hfound, h⟩ := bind_eq_ok.mp h
  refine ⟨found, hfound, ?_⟩
  split at h
  · rename_i hbucket
    rw [hbucket]
    exact (Except.ok.inj h).symm
  · rename_i b hbucket
    rw [hbucket]
    split at h
    · exact (Except.ok.inj h).symm
    · cases h

theorem Scope.metric_eq_ok {m : Metric} {o : Output} (h : sc.metric m = .ok o) :
    ∃ found, sc.locate m.ref = .ok found ∧ o = ⟨m.outputAlias, .aggregate m.aggregation (.column found.column)⟩ := by
  obtain ⟨found, hfound, h⟩ := bind_eq_ok.mp h
  refine ⟨found, hfound, ?_⟩
  split at h
  · exact (Except.ok.inj h).symm
  · cases h

/-- The forms in which a derived field is put out. -/
inductive Scope.Derives (s : Scope) (d : Dialect) (f : DerivedColumn) : Bool → Scalar → Prop
  | alone {v : Scalar} : scalarOf d s.scalar f.tree = .ok v → Derives s d f false v
  | row {v : Scalar} : f.kind = .row → scalarOf d s.scalar f.tree = .ok v → Derives s d f true (.aggregate .sum v)
  | aggregate {v : Scalar} : f.kind = .aggregate → scalarOf d s.summed f.tree = .ok v → Derives s d f true v

theorem Scope.derived_eq_ok {grouped : Bool} {f : DerivedColumn} {o : Output} (h : sc.derived d grouped f = .ok o) :
    o.label = f.outputAlias ∧ sc.Derives d f grouped o.value := by
  unfold Scope.derived at h
  split at h
  · obtain ⟨v, hv, h⟩ := bind_eq_ok.mp h
    cases h
    exact ⟨rfl, .alone hv⟩
  · rename_i hkind
    obtain ⟨v, hv, h⟩ := bind_eq_ok.mp h
    cases h
    exact ⟨rfl, .row hkind hv⟩
  · rename_i hkind
    obtain ⟨v, hv, h⟩ := bind_eq_ok.mp h
    cases h
    exact ⟨rfl, .aggregate hkind hv⟩

theorem Scope.Derives.plain {f : DerivedColumn} {v : Scalar} (h : sc.Derives d f false v) : v.Plain := by
  cases h with
  | alone hv =>
    refine plain_of_scalarOf (fun ref w hw => ?_) hv
    obtain ⟨c, rfl⟩ := Scope.scalar_eq_ok hw
    exact plain_column c

theorem Scope.Derives.summed {f : DerivedColumn} {v : Scalar} (h : sc.Derives d f true v) : v.Summed := by
  cases h with
  -- The tree of a row field is compiled as it is without groups, and then summed as a whole.
  | row hkind hv => exact Plain.summed (Scope.Derives.plain (.alone hv)) .sum
  | aggregate hkind hv =>
    refine summed_of_scalarOf (fun ref w hw => ?_) hv
    obtain ⟨c, rfl⟩ := Scope.summed_eq_ok hw
    exact (plain_column c).summed .sum

/-! ## The statement -/

/-- The statement of the configuration is over groups. -/
def Config.grouped (c : Config) : Bool := !(c.metrics.isEmpty && c.dimensions.isEmpty)

/-- A compiled statement is put together from what its parts are compiled to. -/
theorem Target.analytics_parts {c : Config} {st : Statement} (h : t.analytics c = .ok st) :
    ∃ sc joined metrics derived conditions, t.scope c.models = .ok sc ∧ sc.join c.models c.joins = .ok joined ∧
      c.dimensions.mapM sc.dimension = .ok st.keys ∧ c.metrics.mapM sc.metric = .ok metrics ∧
      c.derivedFields.mapM (sc.derived t.dialect c.grouped) = .ok derived ∧
      c.filters.mapM sc.condition = .ok conditions ∧
      st = ⟨st.keys, metrics ++ derived, joined.source, joined.conditions.map .equal ++ conditions, c.orderBy,
        t.limit c.limit⟩ := by
  obtain ⟨-, -, h⟩ := bind_eq_ok.mp h
  obtain ⟨sc, hscope, h⟩ := bind_eq_ok.mp h
  obtain ⟨joined, hjoined, h⟩ := bind_eq_ok.mp h
  obtain ⟨keys, hkeys, h⟩ := bind_eq_ok.mp h
  obtain ⟨metrics, hmetrics, h⟩ := bind_eq_ok.mp h
  obtain ⟨derived, hderived, h⟩ := bind_eq_ok.mp h
  split at h
  · cases h
  · obtain ⟨conditions, hconditions, h⟩ := bind_eq_ok.mp h
    cases h
    exact ⟨sc, joined, metrics, derived, conditions, hscope, hjoined, hkeys, hmetrics, hderived, hconditions, rfl⟩

/-- A compiled statement has an output for each dimension, for each metric and for each derived field. -/
theorem Target.analytics_eq_ok {c : Config} {st : Statement} (h : t.analytics c = .ok st) :
    ∃ sc metrics derived, t.scope c.models = .ok sc ∧
      List.Forall₂ (fun dim o => sc.dimension dim = .ok o) c.dimensions st.keys ∧
      List.Forall₂ (fun m o => sc.metric m = .ok o) c.metrics metrics ∧
      List.Forall₂ (fun f o => sc.derived t.dialect c.grouped f = .ok o) c.derivedFields derived ∧
      st.values = metrics ++ derived ∧ st.limit = t.limit c.limit := by
  obtain ⟨sc, joined, metrics, derived, conditions, hscope, -, hkeys, hmetrics, hderived, -, hst⟩ :=
    Target.analytics_parts h
  refine ⟨sc, metrics, derived, hscope, mapM_eq_ok.mp hkeys, mapM_eq_ok.mp hmetrics, mapM_eq_ok.mp hderived, ?_, ?_⟩
  · rw [hst]
  · rw [hst]

theorem Config.grouped_eq_false_iff {c : Config} : c.grouped = false ↔ c.metrics = [] ∧ c.dimensions = [] := by
  rw [Config.grouped, Bool.not_eq_false', Bool.and_eq_true, List.isEmpty_iff, List.isEmpty_iff]

theorem labels_of_analytics {c : Config} {st : Statement} (h : t.analytics c = .ok st) :
    st.outputs.map (·.label) = c.outputAliases := by
  obtain ⟨sc, metrics, derived, -, hkeys, hmetrics, hderived, hvalues, -⟩ := Target.analytics_eq_ok h
  have hkeyLabels := labels_of_forall₂ (·.outputAlias) hkeys fun dim _ o ho => by
    obtain ⟨_, -, rfl⟩ := Scope.dimension_eq_ok ho
    rfl
  have hmetricLabels := labels_of_forall₂ (·.outputAlias) hmetrics fun m _ o ho => by
    obtain ⟨_, -, rfl⟩ := Scope.metric_eq_ok ho
    rfl
  have hderivedLabels := labels_of_forall₂ (·.outputAlias) hderived fun f _ o ho => (Scope.derived_eq_ok ho).1
  rw [Statement.outputs, hvalues, ← List.append_assoc, List.map_append, List.map_append, hkeyLabels, hmetricLabels,
    hderivedLabels, Config.outputAliases]

/-- In the statement of a configuration with a metric or a dimension each column is a key of the groups or stands
inside exactly one aggregate, and no aggregate inside another; the keys are the columns of the dimensions, or the
periods of their dates.  Without metrics and dimensions there are no keys and no aggregates. -/
theorem analytics_grouping {c : Config} {st : Statement} (h : t.analytics c = .ok st) :
    (c.metrics ≠ [] ∨ c.dimensions ≠ [] →
      (∀ o ∈ st.values, o.value.Summed) ∧ ∀ o ∈ st.keys, o.value.Plain) ∧
    (c.metrics = [] ∧ c.dimensions = [] → st.keys = [] ∧ ∀ o ∈ st.values, o.value.Plain) ∧
    (∃ sc, t.scope c.models = .ok sc ∧
      List.Forall₂ (fun dim o => ∃ found, sc.locate dim.ref = .ok found ∧
        o = ⟨dim.outputAlias, keyScalar dim.bucket found.column⟩) c.dimensions st.keys) ∧
    st.outputs.map (·.label) = c.outputAliases := by
  obtain ⟨sc, metrics, derived, hscope, hkeys, hmetrics, hderived, hvalues, -⟩ := Target.analytics_eq_ok h
  have hkeysPlain : ∀ o ∈ st.keys, o.value.Plain := by
    intro o ho
    obtain ⟨dim, -, hdim⟩ := exists_of_mem_right hkeys ho
    obtain ⟨found, -, rfl⟩ := Scope.dimension_eq_ok hdim
    exact plain_keyScalar dim.bucket found.column
  have hmetricsSummed : ∀ o ∈ metrics, o.value.Summed := by
    intro o ho
    obtain ⟨m, -, hm⟩ := exists_of_mem_right hmetrics ho
    obtain ⟨found, -, rfl⟩ := Scope.metric_eq_ok hm
    exact (plain_column found.column).summed m.aggregation
  refine ⟨fun hsome => ⟨?_, hkeysPlain⟩, fun hnone => ⟨?_, ?_⟩, ⟨sc, hscope, ?_⟩, ?_⟩
  · have hgrouped : c.grouped = true := by
      rw [← Bool.not_eq_false, Config.grouped_eq_false_iff, not_and_or]
      exact hsome
    rw [hvalues, List.forall_mem_append]
    refine ⟨hmetricsSummed, fun o ho => ?_⟩
    obtain ⟨f, -, hf⟩ := exists_of_mem_right hderived ho
    rw [hgrouped] at hf
    exact (Scope.derived_eq_ok hf).2.summed
  · rw [hnone.2] at hkeys
    exact List.forall₂_nil_left_iff.mp hkeys
  · rw [hnone.1] at hmetrics
    rw [hvalues, List.forall₂_nil_left_iff.mp hmetrics, List.nil_append]
    intro o ho
    obtain ⟨f, -, hf⟩ := exists_of_mem_right hderived ho
    rw [Config.grouped_eq_false_iff.mpr hnone] at hf
    exact (Scope.derived_eq_ok hf).2.plain
  · exact hkeys.imp fun dim o ho => Scope.dimension_eq_ok ho
  · exact labels_of_analytics h

/-- The derived column of a tree. -/
def columnOfTree (id : String) (kind : DerivedField.Kind) (e : Expr) (h : Expr.ofJson e.toJson = .ok e) :
    DerivedColumn :=
  ⟨id, id, kind, e.toJson, e, e.models, [], none, none, h⟩

/-- The double of `m.x`. -/
def twice : Expr := .binary .mul (.literal (.int 2)) (.column ⟨"m", "x"⟩)

/-- A sum by texts, beside a row field and an aggregate field of the same tree. -/
def sumByText : Config :=
  ⟨["m"], [], [], [⟨⟨"m", "x"⟩, .sum, "sum"⟩], [⟨⟨"m", "y"⟩, none, "text"⟩],
    [columnOfTree "r" .row twice rfl, columnOfTree "a" .aggregate twice rfl], [], 100, .standard⟩

/-- The row field is summed as a whole, and the aggregate field sums its column. -/
theorem analytics_grouping_both_kinds :
    ∃ st, (oneTable (numbersAndTexts "x" "y") ["x", "y"]).analytics sumByText = .ok st ∧
      (∀ o ∈ st.values, o.value.Summed) ∧ (∀ o ∈ st.keys, o.value.Plain) ∧
      st.outputs.map (·.label) = ["text", "sum", "r", "a"] := by
  obtain ⟨st, hst⟩ : ∃ st, (oneTable (numbersAndTexts "x" "y") ["x", "y"]).analytics sumByText = .ok st := ⟨_, rfl⟩
  obtain ⟨hgrouped, -, -, hlabels⟩ := analytics_grouping hst
  obtain ⟨hvalues, hkeys⟩ := hgrouped (.inl (List.cons_ne_nil _ _))
  exact ⟨st, hst, hvalues, hkeys, hlabels⟩

end Query

end AdhocReport
