import AdhocReport.Proofs.Query.Grouping
import AdhocReport.Proofs.Query.Preview
import AdhocReport.Query.Execution
set_option autoImplicit false

/-!
# Queries: derived fields in single rows

SQLite takes the greatest and the least of a single value for aggregates over all rows.  A derived field that
picks only from several values has a value in each row: without groups a statement then gives one result row
for each row that it matches, and within groups the sums of the fields are the only aggregates.  A single pick
from one value makes a statement without groups give one result row in all.
-/

namespace AdhocReport

namespace Sql.Statement

open AdhocReport.Collection

variable {s : Statement} {content : Content}

/-- The values of the outputs in a row that stands alone. -/
def rowOf (s : Statement) (r : Row) : List Value := s.outputs.map fun o => o.value.value (.single r)

/-- The statement gives one result row for each row that it matches, in some order and up to the limit. -/
def RowWise (s : Statement) (content : Content) : Prop :=
  ∃ rows, rows.Perm ((s.matchingRows content).map s.rowOf) ∧ s.results content = s.limited rows

/-- The statement gives a single result row, up to the limit. -/
def Collapsed (s : Statement) (content : Content) : Prop := ∃ row, s.results content = s.limited [row]

theorem perm_inReadingOrder (rows : List Row) : (s.inReadingOrder rows).Perm rows := by
  unfold inReadingOrder
  split
  · exact .refl rows
  · exact perm_sortBy _ rows

theorem perm_ordered (rows : List (List Value)) : (s.ordered rows).Perm rows := perm_sortBy _ rows

theorem hasAggregate_eq_false_iff : s.hasAggregate = false ↔ ∀ o ∈ s.outputs, o.value.aggregateDepth = 0 := by
  rw [hasAggregate, List.any_eq_false]
  simp only [decide_eq_true_eq, Nat.pos_iff_ne_zero, not_not]

theorem rowWise_of_not_hasAggregate (hkeys : s.keys = []) (hnone : s.hasAggregate = false) : s.RowWise content := by
  have hgroups (rows : List Row) : s.groups rows = rows.map Group.single := by
    rw [groups, hkeys, hnone]
    rfl
  refine ⟨s.ordered ((s.inReadingOrder (s.matchingRows content)).map s.rowOf), ?_, ?_⟩
  · exact (perm_ordered _).trans ((perm_inReadingOrder _).map s.rowOf)
  · rw [results, hgroups, List.map_map]
    rfl

theorem collapsed_of_hasAggregate (hkeys : s.keys = []) (hsome : s.hasAggregate = true) : s.Collapsed content := by
  have hgroups (rows : List Row) : ∃ g, s.groups rows = [g] := by
    rw [groups, hkeys, hsome]
    exact ⟨_, rfl⟩
  obtain ⟨g, hg⟩ := hgroups (s.inReadingOrder (s.matchingRows content))
  refine ⟨s.outputs.map fun o => o.value.value g, ?_⟩
  rw [results, hg]
  rfl

/-- How many of so many rows are within the limit. -/
def within (s : Statement) (n : Nat) : Nat := if s.limit < 0 then n else min s.limit.toNat n

theorem length_limited (rows : List (List Value)) : (s.limited rows).length = s.within rows.length := by
  rw [limited, within]
  split
  · rfl
  · exact List.length_take

theorem RowWise.length (h : s.RowWise content) :
    (s.results content).length = s.within (s.matchingRows content).length := by
  obtain ⟨rows, hperm, hresults⟩ := h
  rw [hresults, length_limited, hperm.length_eq, List.length_map]

end Sql.Statement

namespace Query

open AdhocReport.Sql AdhocReport.Sql.Scalar
open Outcome (bind_eq_ok bind_ok mapM_eq_ok exists_of_mem_right)

variable {t : Target} {sc : Scope} {d : Dialect}

/-! ## Derived fields -/

theorem aggregateDepth_of_scalar {ref : FieldRef} {v : Scalar} (h : sc.scalar ref = .ok v) : v.aggregateDepth = 0 := by
  obtain ⟨c, rfl⟩ := Scope.scalar_eq_ok h
  rfl

theorem aggregateDepth_of_summed {ref : FieldRef} {v : Scalar} (h : sc.summed ref = .ok v) : v.aggregateDepth = 1 := by
  obtain ⟨c, rfl⟩ := Scope.summed_eq_ok h
  rfl

/-- A derived field that is put out alone calls an aggregate of SQLite exactly when it picks from one value. -/
theorem Scope.Derives.aggregateDepth_eq_zero_iff {f : DerivedColumn} {v : Scalar} (h : sc.Derives d f false v) :
    v.aggregateDepth = 0 ↔ ¬ f.tree.PicksFromOne := by
  cases h with
  | alone hv => exact (compiles_of_scalarOf _ hv).aggregateDepth_eq_zero_iff fun _ _ => aggregateDepth_of_scalar

/-- Within groups the sums are the only aggregates of a derived field that picks from several values. -/
theorem Scope.Derives.aggregateDepth_le {f : DerivedColumn} {v : Scalar} (h : sc.Derives d f true v)
    (hmany : ¬ f.tree.PicksFromOne) : v.aggregateDepth ≤ 1 := by
  cases h with
  | row hkind hv =>
    have hzero := (Scope.Derives.aggregateDepth_eq_zero_iff (.alone hv)).mpr hmany
    rw [aggregateDepth, hzero]
  | aggregate hkind hv =>
    exact (compiles_of_scalarOf _ hv).aggregateDepth_le (fun _ _ hw => (aggregateDepth_of_summed hw).le) hmany

theorem forall_aggregateDepth_eq_zero_iff {fields : List DerivedColumn} {derived : List Output}
    (h : List.Forall₂ (fun f o => sc.derived d false f = .ok o) fields derived) :
    (∀ o ∈ derived, o.value.aggregateDepth = 0) ↔ ∀ f ∈ fields, ¬ f.tree.PicksFromOne := by
  induction h with
  | nil => exact iff_of_true (List.forall_mem_nil _) (List.forall_mem_nil _)
  | cons hf _ ih =>
    rw [List.forall_mem_cons, List.forall_mem_cons, ih, (Scope.derived_eq_ok hf).2.aggregateDepth_eq_zero_iff]

/-! ## Statements without groups -/

/-- A statement without groups gives one result row for each row, unless one of its derived fields picks from one
value; then it gives one result row in all. -/
structure Ungrouped (fields : List DerivedColumn) (st : Statement) (content : Content) : Prop where
  rowWise : (∀ f ∈ fields, ¬ f.tree.PicksFromOne) → st.RowWise content
  collapsed : (∃ f ∈ fields, f.tree.PicksFromOne) → st.Collapsed content

theorem ungrouped_of_derived {fields : List DerivedColumn} {st : Statement} {columns derived : List Output}
    (hkeys : st.keys = []) (hvalues : st.values = columns ++ derived)
    (hcolumns : ∀ o ∈ columns, o.value.aggregateDepth = 0)
    (hderived : List.Forall₂ (fun f o => sc.derived d false f = .ok o) fields derived) (content : Content) :
    Ungrouped fields st content := by
  have hnone : st.hasAggregate = false ↔ ∀ f ∈ fields, ¬ f.tree.PicksFromOne := by
    rw [Statement.hasAggregate_eq_false_iff, Statement.outputs, hkeys, hvalues, List.nil_append, List.forall_mem_append,
      forall_aggregateDepth_eq_zero_iff hderived]
    exact and_iff_right hcolumns
  refine ⟨fun hmany => Statement.rowWise_of_not_hasAggregate hkeys (hnone.mpr hmany), fun hone => ?_⟩
  refine Statement.collapsed_of_hasAggregate hkeys ?_
  rw [← Bool.not_eq_false, hnone]
  intro hmany
  obtain ⟨f, hf, hpicks⟩ := hone
  exact hmany f hf hpicks

theorem Target.preview_eq_ok {r : PreviewRequest} {st : Statement} (h : t.preview r = .ok st) :
    ∃ sc columns derived, t.scope r.models = .ok sc ∧
      List.Forall₂ (fun ref o => sc.previewColumn ref = .ok o) r.columns columns ∧
      List.Forall₂ (fun f o => sc.derived t.dialect false f = .ok o) r.derivedFields derived ∧
      st.keys = [] ∧ st.values = columns ++ derived ∧ st.limit = t.limit r.limit := by
  obtain ⟨sc, _, columns, derived, hscope, -, hcolumns, hderived, -, rfl⟩ := t.preview_parts h
  exact ⟨sc, columns, derived, hscope, mapM_eq_ok.mp hcolumns, mapM_eq_ok.mp hderived, rfl, rfl, rfl⟩

theorem Scope.previewColumn_eq_ok {ref : FieldRef} {o : Output} (h : sc.previewColumn ref = .ok o) :
    ∃ c, o.value = .column c := by
  obtain ⟨found, -, h⟩ := bind_eq_ok.mp h
  cases h
  exact ⟨found.column, rfl⟩

theorem ungrouped_of_analytics {c : Config} {st : Statement} (h : t.analytics c = .ok st)
    (hnone : c.metrics = [] ∧ c.dimensions = []) (content : Content) : Ungrouped c.derivedFields st content := by
  obtain ⟨sc, metrics, derived, -, hkeys, hmetrics, hderived, hvalues, -⟩ := Target.analytics_eq_ok h
  rw [hnone.2, List.forall₂_nil_left_iff] at hkeys
  rw [hnone.1, List.forall₂_nil_left_iff] at hmetrics
  rw [Config.grouped_eq_false_iff.mpr hnone] at hderived
  rw [hmetrics] at hvalues
  exact ungrouped_of_derived hkeys hvalues (List.forall_mem_nil _) hderived content

theorem ungrouped_of_preview {r : PreviewRequest} {st : Statement} (h : t.preview r = .ok st) (content : Content) :
    Ungrouped r.derivedFields st content := by
  obtain ⟨sc, columns, derived, -, hcolumns, hderived, hkeys, hvalues, -⟩ := Target.preview_eq_ok h
  refine ungrouped_of_derived hkeys hvalues (fun o ho => ?_) hderived content
  obtain ⟨ref, -, href⟩ := exists_of_mem_right hcolumns ho
  obtain ⟨c, hc⟩ := Scope.previewColumn_eq_ok href
  rw [hc, aggregateDepth]

/-! ## Statements over groups -/

theorem aggregateDepth_of_analytics {c : Config} {st : Statement} (h : t.analytics c = .ok st)
    (hmany : ∀ f ∈ c.derivedFields, ¬ f.tree.PicksFromOne) : ∀ o ∈ st.outputs, o.value.aggregateDepth ≤ 1 := by
  obtain ⟨sc, metrics, derived, -, hkeys, hmetrics, hderived, hvalues, -⟩ := Target.analytics_eq_ok h
  rw [Statement.outputs, hvalues, List.forall_mem_append, List.forall_mem_append]
  refine ⟨fun o ho => ?_, fun o ho => ?_, fun o ho => ?_⟩
  · obtain ⟨dim, -, hdim⟩ := exists_of_mem_right hkeys ho
    obtain ⟨found, -, rfl⟩ := Scope.dimension_eq_ok hdim
    cases dim.bucket <;> exact Nat.zero_le 1
  · obtain ⟨m, -, hm⟩ := exists_of_mem_right hmetrics ho
    obtain ⟨found, -, rfl⟩ := Scope.metric_eq_ok hm
    exact le_rfl
  · obtain ⟨f, hf, hderives⟩ := exists_of_mem_right hderived ho
    have hform := (Scope.derived_eq_ok hderives).2
    cases hgrouped : c.grouped with
    | false =>
      rw [hgrouped] at hform
      rw [hform.aggregateDepth_eq_zero_iff.mpr (hmany f hf)]
      exact Nat.zero_le 1
    | true =>
      rw [hgrouped] at hform
      exact hform.aggregateDepth_le (hmany f hf)

/-! ## Runs -/

/-- What makes the run of a statement fail: the warehouse does not accept the statement, or a value of a result row
is not of the type of its column. -/
def Target.Fails (t : Target) (content : Content) (st : Statement) (f : Failure) : Prop :=
  statementFailure? st = some f ∨ ∃ values ∈ st.results content,
    resultRow (st.outputs.map (·.label)) (st.outputs.map fun o => o.value.type t.dialect) values = .error f

/-- A run returns a row for each result row, or it fails. -/
theorem Target.run_cases (content : Content) (st : Statement) (sql : String) :
    (∃ result, t.run content st sql = .ok result ∧ result.rows.length = (st.results content).length) ∨
      ∃ f, t.run content st sql = .error f ∧ t.Fails content st f := by
  unfold Target.run
  cases hfailure : statementFailure? st with
  | some f => exact .inr ⟨f, rfl, .inl hfailure⟩
  | none =>
    dsimp only
    cases hrows : (st.results content).mapM
        (resultRow (st.outputs.map (·.label)) (st.outputs.map fun o => o.value.type t.dialect)) with
    | ok cells => exact .inl ⟨_, rfl, (ResultTable.length_rows _).trans (mapM_eq_ok.mp hrows).length_eq.symm⟩
    | error f => exact .inr ⟨f, rfl, .inr (Outcome.exists_of_mapM_eq_error hrows)⟩

/-- A tree over plain columns calls no aggregate of SQLite exactly when it asks nowhere for the greatest or the least
of a single value.  If no derived field of a query without groups, or of a preview, does so, then its statement
gives one result row for each row that it matches, and a run that does not fail returns as many; if one does, the
statement gives one result row in all.  Over groups no aggregate stands inside another if no derived field does so. -/
theorem rows_of_derived_fields (t : Target) :
    (∀ (sc : Scope) (e : Expr) (v : Scalar), scalarOf .sqlite sc.scalar e = .ok v →
      ((∀ n p, Part n p v → ¬ p.CallsAggregate) ↔ ¬ e.PicksFromOne)) ∧
    (∀ c st, t.analytics c = .ok st → c.metrics = [] ∧ c.dimensions = [] → st.limit = t.limit c.limit ∧ ∀ content,
      Ungrouped c.derivedFields st content ∧
      ((∀ f ∈ c.derivedFields, ¬ f.tree.PicksFromOne) →
        (∃ result, t.execute content c = .ok result ∧
          result.rows.length = st.within (st.matchingRows content).length) ∨
        ∃ f, t.execute content c = .error f ∧ t.Fails content st f)) ∧
    (∀ r st, t.preview r = .ok st → st.limit = t.limit r.limit ∧ ∀ content,
      Ungrouped r.derivedFields st content ∧
      ((∀ f ∈ r.derivedFields, ¬ f.tree.PicksFromOne) →
        (∃ result, t.runPreview content r = .ok result ∧
          result.rows.length = st.within (st.matchingRows content).length) ∨
        ∃ f, t.runPreview content r = .error f ∧
          (singleSelect (st.text t.dialect) = .error f ∨ t.Fails content st f))) ∧
    ∀ c st, t.analytics c = .ok st → (∀ f ∈ c.derivedFields, ¬ f.tree.PicksFromOne) →
      ∀ o ∈ st.outputs, o.value.aggregateDepth ≤ 1 := by
  refine ⟨fun sc e v hv => ?_, fun c st h hnone => ⟨?_, fun content => ?_⟩, fun r st h => ⟨?_, fun content => ?_⟩,
    fun c st => aggregateDepth_of_analytics⟩
  · rw [← Scalar.aggregateDepth_eq_zero_iff]
    exact (compiles_of_scalarOf _ hv).aggregateDepth_eq_zero_iff fun _ _ => aggregateDepth_of_scalar
  · obtain ⟨_, _, _, -, -, -, -, -, hlimit⟩ := Target.analytics_eq_ok h
    exact hlimit
  · have hungrouped := ungrouped_of_analytics h hnone content
    refine ⟨hungrouped, fun hmany => ?_⟩
    rw [Target.execute, h, bind_ok, ← (hungrouped.rowWise hmany).length]
    exact t.run_cases content st _
  · obtain ⟨_, _, _, -, -, -, -, -, hlimit⟩ := Target.preview_eq_ok h
    exact hlimit
  · have hungrouped := ungrouped_of_preview h content
    refine ⟨hungrouped, fun hmany => ?_⟩
    rw [Target.runPreview, h, bind_ok, ← (hungrouped.rowWise hmany).length]
    cases hsingle : singleSelect (st.text t.dialect) with
    | error f => exact .inr ⟨f, rfl, .inl rfl⟩
    | ok sql =>
      rw [bind_ok]
      rcases t.run_cases content st sql with ⟨result, hresult, hlength⟩ | ⟨f, hf, hfails⟩
      · rw [hresult]
        exact .inl ⟨_, rfl, hlength⟩
      · rw [hf]
        exact .inr ⟨f, rfl, .inr hfails⟩

/-- The column `m.x` of numbers. -/
def numbersColumn : Expr := .column ⟨"m", "x"⟩

/-- A query of one row field. -/
def aloneConfig (e : Expr) (h : Expr.ofJson e.toJson = .ok e) : Config :=
  ⟨["m"], [], [], [], [], [columnOfTree "d" .row e h], [], 100, .standard⟩

/-- A table of two records, with `x` one and two. -/
def oneAndTwo : Content := fun _ => [fun _ => .int 1, fun _ => .int 2]

/-- The greatest of a column and zero is computed in each row. -/
theorem rows_of_derived_fields_pair :
    ∃ st, (oneTable (numbersAndTexts "x" "y") ["x", "y"]).analytics
        (aloneConfig (.call .greatest [numbersColumn, .literal (.int 0)]) rfl) = .ok st ∧
      st.RowWise oneAndTwo ∧ (st.results oneAndTwo).length = 2 := by
  obtain ⟨st, hst, hwithin⟩ : ∃ st, (oneTable (numbersAndTexts "x" "y") ["x", "y"]).analytics
      (aloneConfig (.call .greatest [numbersColumn, .literal (.int 0)]) rfl) = .ok st ∧
      st.within (st.matchingRows oneAndTwo).length = 2 := ⟨_, rfl, rfl⟩
  obtain ⟨-, hanalytics, -⟩ := rows_of_derived_fields (oneTable (numbersAndTexts "x" "y") ["x", "y"])
  obtain ⟨-, hrun⟩ := hanalytics _ st hst ⟨rfl, rfl⟩
  obtain ⟨hungrouped, -⟩ := hrun oneAndTwo
  have hrows := hungrouped.rowWise (List.forall_mem_singleton.mpr (by decide +kernel))
  exact ⟨st, hst, hrows, hrows.length.trans hwithin⟩

/-- The greatest of a column alone is an aggregate: of two rows it gives one. -/
theorem greatest_of_column_collapses :
    Expr.ofJson (Expr.call .greatest [numbersColumn]).toJson = .ok (.call .greatest [numbersColumn]) ∧
      ∃ st, (oneTable (numbersAndTexts "x" "y") ["x", "y"]).analytics
          (aloneConfig (.call .greatest [numbersColumn]) rfl) = .ok st ∧
        (∃ o ∈ st.outputs, o.value.CallsAggregate) ∧
        (st.matchingRows oneAndTwo).length = 2 ∧ st.results oneAndTwo = [[.int 2]] := by
  refine ⟨rfl, _, rfl, ⟨_, List.mem_singleton.mpr rfl, ?_⟩, rfl, ?_⟩
  · exact ⟨rfl, .inl rfl⟩
  · rfl

end Query

end AdhocReport
