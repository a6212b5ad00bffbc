import AdhocReport.Proofs.Query.Grouping
import AdhocReport.Proofs.Query.Record
import AdhocReport.Proofs.Schema.Introspection
set_option autoImplicit false

/-!
# Queries: how a configuration is refused

Each step of compiling a configuration fails with a report error only, where the tables have a column behind each
field that the registry knows.  The conditions alone can fail in another way: a filter that puts a truth value in an
order is refused by the statement layer, and that is no report error.
-/

namespace AdhocReport.Query

open AdhocReport.Sql
open Outcome (bind_ok bind_eq_ok mapM_eq_ok mapM_eq_error FailsOnly failsOnly_ok failsOnly_error)

variable {t : Target} {sc : Scope} {models : List String}

/-- The failure is a report error that is answered as a fault of the request. -/
def Reported (e : Failure) : Prop := ∃ r, e = .report r ∧ (r.status = 400 ∨ r.status = 409)

theorem failsOnly_faulty {α : Type} (f : Fault) : FailsOnly Reported (faulty f : Except Failure α) :=
  failsOnly_error ⟨_, rfl, .inl rfl⟩

/-! ## Lookups -/

theorem failsOnly_current (models : List String) (columns : List DerivedColumn) :
    FailsOnly Reported (current models columns) := by
  unfold current ensureCurrent
  dsimp only
  split
  · exact failsOnly_ok ()
  · exact failsOnly_error ⟨_, rfl, .inr rfl⟩

theorem Target.failsOnly_scope (t : Target) (models : List String) : FailsOnly Reported (t.scope models) := by
  refine FailsOnly.bind (FailsOnly.mapM fun m _ => ?_) fun tables _ => failsOnly_ok _
  unfold Target.table
  split
  · exact failsOnly_faulty _
  · split
    · exact failsOnly_faulty _
    · exact failsOnly_ok _

/-- A field of a selected model is found, or it is not known. -/
theorem Scope.failsOnly_locate (hscope : t.scope models = .ok sc) (hmaps : t.MapsAll) (ref : FieldRef) :
    FailsOnly Reported (sc.locate ref) := by
  unfold Scope.locate
  split
  · exact failsOnly_faulty _
  · rename_i table hlookup
    split
    · exact failsOnly_faulty _
    · rename_i f hfield
      rw [(Target.tables_of_scope hscope).1] at hfield
      obtain ⟨hmem, htable⟩ := (Scope.lookup_tables hscope ref.model table).mp hlookup
      obtain ⟨m, hm, hf⟩ : ∃ m, t.registry.model? ref.model = some m ∧ m.field? ref.field = some f := by
        unfold Schema.Registry.field? at hfield
        split at hfield
        · rename_i m hm
          exact ⟨m, hm, hfield⟩
        · cases hfield
      obtain ⟨m', table', hm', htable', hcolumns⟩ := hmaps _ _ hm
      cases hm.symm.trans hm'
      cases htable.symm.trans htable'
      obtain ⟨c, hc⟩ := hcolumns f (mem_of_field? hf)
      rw [hc]
      exact failsOnly_ok _

section

variable (hlocate : ∀ ref, FailsOnly Reported (sc.locate ref))

include hlocate

theorem Scope.failsOnly_equality (j : Join.Condition) : FailsOnly Reported (sc.equality j) :=
  (hlocate j.left).bind fun _ _ => (hlocate j.right).bind fun _ _ => failsOnly_ok _

theorem Scope.failsOnly_join (models : List String) (joins : List Join.Condition) :
    FailsOnly Reported (sc.join models joins) := by
  unfold Scope.join
  dsimp only
  split
  · exact failsOnly_faulty _
  · split
    · exact failsOnly_faulty _
    · refine FailsOnly.foldlM (fun acc step _ => ?_) _
      refine (Scope.failsOnly_equality hlocate step.join).bind fun on _ => ?_
      cases step with
      | close j => exact failsOnly_ok _
      | attach j model =>
        dsimp only
        split
        · exact failsOnly_ok _
        · exact failsOnly_faulty _

/-! ## Outputs -/

theorem Scope.failsOnly_dimension (dim : Dimension) : FailsOnly Reported (sc.dimension dim) := by
  refine (hlocate dim.ref).bind fun found _ => ?_
  split
  · exact failsOnly_ok _
  · split
    · exact failsOnly_ok _
    · exact failsOnly_faulty _

theorem Scope.failsOnly_metric (m : Metric) : FailsOnly Reported (sc.metric m) := by
  refine (hlocate m.ref).bind fun found _ => ?_
  split
  · exact failsOnly_ok _
  · exact failsOnly_faulty _

end

mutual

/-- A tree fails only where one of its columns does. -/
theorem failsOnly_scalarOf {P : Failure → Prop} {d : Dialect} {column : FieldRef → Except Failure Scalar}
    (hcolumn : ∀ ref, FailsOnly P (column ref)) : (e : Expr) → FailsOnly P (scalarOf d column e)
  | .column ref => hcolumn ref
  | .literal _ => failsOnly_ok _
  | .unary .minus e => (failsOnly_scalarOf hcolumn e).bind fun _ _ => failsOnly_ok _
  | .unary .plus e => failsOnly_scalarOf hcolumn e
  | .binary _ l r =>
    (failsOnly_scalarOf hcolumn l).bind fun _ _ => (failsOnly_scalarOf hcolumn r).bind fun _ _ => failsOnly_ok _
  | .call _ args => (failsOnly_scalarsOf hcolumn args).bind fun _ _ => failsOnly_ok _

theorem failsOnly_scalarsOf {P : Failure → Prop} {d : Dialect} {column : FieldRef → Except Failure Scalar}
    (hcolumn : ∀ ref, FailsOnly P (column ref)) : (args : List Expr) → FailsOnly P (scalarsOf d column args)
  | [] => failsOnly_ok _
  | e :: rest =>
    (failsOnly_scalarOf hcolumn e).bind fun _ _ => (failsOnly_scalarsOf hcolumn rest).bind fun _ _ => failsOnly_ok _

end

theorem Scope.failsOnly_derived (hlocate : ∀ ref, FailsOnly Reported (sc.locate ref)) (d : Dialect) (grouped : Bool)
    (f : DerivedColumn) : FailsOnly Reported (sc.derived d grouped f) := by
  have hscalar (ref : FieldRef) : FailsOnly Reported (sc.scalar ref) :=
    (hlocate ref).bind fun _ _ => failsOnly_ok _
  have hsummed (ref : FieldRef) : FailsOnly Reported (sc.summed ref) :=
    (hlocate ref).bind fun _ _ => failsOnly_ok _
  unfold Scope.derived
  split
  · exact (failsOnly_scalarOf hscalar f.tree).bind fun _ _ => failsOnly_ok _
  · exact (failsOnly_scalarOf hscalar f.tree).bind fun _ _ => failsOnly_ok _
  · exact (failsOnly_scalarOf hsummed f.tree).bind fun _ _ => failsOnly_ok _

/-! ## Filters -/

/-- A filter on a known field is refused for nothing but a truth value in an order. -/
theorem Scope.failsOnly_condition (hlocate : ∀ ref, FailsOnly Reported (sc.locate ref)) (f : Filter.Comparison) :
    FailsOnly (fun e => Reported e ∨ e = .orderedTruth ∧ OrdersTruth f) (sc.condition f) := by
  intro e he
  cases hfound : sc.locate f.left with
  | error e' =>
    rw [Scope.condition, hfound] at he
    cases he
    exact .inl (hlocate _ _ hfound)
  | ok found =>
    by_cases horders : OrdersTruth f
    · rw [Scope.condition_of_ordersTruth hfound horders] at he
      cases he
      exact .inr ⟨rfl, horders⟩
    · rw [Scope.condition_eq_compare hfound horders] at he
      cases he

/-- The filter as an equality. -/
def asEquality (f : Filter.Comparison) : Filter.Comparison := { f with comparator := .eq }

theorem not_reported_orderedTruth : ¬ Reported .orderedTruth := by
  rintro ⟨r, hr, -⟩
  cases hr

/-- A filter is refused by the statement layer exactly when it puts a truth value in an order, on a field with which
an equality is compiled. -/
theorem Scope.condition_eq_orderedTruth_iff (hlocate : ∀ ref, FailsOnly Reported (sc.locate ref))
    {f : Filter.Comparison} : sc.condition f = .error .orderedTruth ↔
      OrdersTruth f ∧ ∃ condition, sc.condition (asEquality f) = .ok condition := by
  constructor
  · intro h
    have horders := ((Scope.failsOnly_condition hlocate f _ h).resolve_left not_reported_orderedTruth).2
    refine ⟨horders, ?_⟩
    cases hfound : sc.locate f.left with
    | error e =>
      rw [Scope.condition, hfound] at h
      cases h
      exact absurd (hlocate _ _ hfound) not_reported_orderedTruth
    | ok found => exact ⟨_, @Scope.condition_eq_compare sc (asEquality f) found hfound fun hequal => hequal.2.1 rfl⟩
  · rintro ⟨horders, condition, hcondition⟩
    obtain ⟨found, hfound, -⟩ := bind_eq_ok.mp hcondition
    exact Scope.condition_of_ordersTruth hfound horders

theorem Scope.conditions_eq_orderedTruth_iff (hlocate : ∀ ref, FailsOnly Reported (sc.locate ref))
    {filters : List Filter.Comparison} : filters.mapM sc.condition = .error .orderedTruth ↔
      ∃ before f after, filters = before ++ f :: after ∧ OrdersTruth f ∧
        ∃ conditions, (before ++ [asEquality f]).mapM sc.condition = .ok conditions := by
  rw [mapM_eq_error]
  refine exists_congr fun before => exists_congr fun f => exists_congr fun after => ?_
  simp only [Scope.condition_eq_orderedTruth_iff hlocate]
  constructor
  · rintro ⟨conditions, hfilters, hbefore, horders, condition, hcondition⟩
    refine ⟨hfilters, horders, conditions ++ [condition], ?_⟩
    rw [List.mapM_append, hbefore, bind_ok, List.mapM_cons, hcondition]
    rfl
  · rintro ⟨hfilters, horders, conditions, hconditions⟩
    rw [List.mapM_append] at hconditions
    obtain ⟨first, hfirst, hconditions⟩ := bind_eq_ok.mp hconditions
    obtain ⟨last, hlast, -⟩ := bind_eq_ok.mp hconditions
    rw [List.mapM_cons] at hlast
    obtain ⟨condition, hcondition, -⟩ := bind_eq_ok.mp hlast
    exact ⟨first, hfilters, hfirst, horders, condition, hcondition⟩

/-! ## The statement -/

/-- Compile all of a configuration but its filters: the scope of the filters, and the statement to which their
conditions are added. -/
def Target.unfiltered (t : Target) (c : Config) : Except Failure (Scope × (List Condition → Statement)) := do
  current c.models c.derivedFields
  let scope ← t.scope c.models
  let joined ← scope.join c.models c.joins
  let keys ← c.dimensions.mapM scope.dimension
  let metrics ← c.metrics.mapM scope.metric
  let derived ← c.derivedFields.mapM (scope.derived t.dialect c.grouped)
  if keys.isEmpty && metrics.isEmpty && derived.isEmpty then faulty .emptyProjection
  else .ok ⟨scope, fun conditions => ⟨keys, metrics ++ derived, joined.source,
    joined.conditions.map .equal ++ conditions, c.orderBy, t.limit c.limit⟩⟩

/-- The filters are compiled last, each on its own. -/
theorem Target.analytics_eq_unfiltered (t : Target) (c : Config) (filters : List Filter.Comparison) :
    t.analytics { c with filters } = (t.unfiltered c >>= fun p => (filters.mapM p.1.condition).map p.2) := by
  simp only [Target.analytics, Target.unfiltered, Config.grouped, bind_assoc]
  refine bind_congr fun _ => bind_congr fun scope => bind_congr fun joined => bind_congr fun keys =>
    bind_congr fun metrics => bind_congr fun derived => ?_
  split
  · rfl
  · rw [bind_ok]
    cases filters.mapM scope.condition <;> rfl

/-- Before its filters a configuration is refused for nothing but what is reported. -/
theorem Target.failsOnly_unfiltered (hmaps : t.MapsAll) (c : Config) : FailsOnly Reported (t.unfiltered c) := by
  refine (failsOnly_current _ _).bind fun _ _ => (t.failsOnly_scope _).bind fun sc hscope => ?_
  have hlocate (ref : FieldRef) := Scope.failsOnly_locate hscope hmaps ref
  refine (Scope.failsOnly_join hlocate _ _).bind fun joined _ => ?_
  refine (FailsOnly.mapM fun dim _ => Scope.failsOnly_dimension hlocate dim).bind fun keys _ => ?_
  refine (FailsOnly.mapM fun m _ => Scope.failsOnly_metric hlocate m).bind fun metrics _ => ?_
  refine (FailsOnly.mapM fun f _ => Scope.failsOnly_derived hlocate _ _ f).bind fun derived _ => ?_
  split
  · exact failsOnly_faulty _
  · exact failsOnly_ok _

theorem Target.scope_of_unfiltered {c : Config} {p : Scope × (List Condition → Statement)}
    (h : t.unfiltered c = .ok p) : t.scope c.models = .ok p.1 := by
  obtain ⟨-, -, h⟩ := bind_eq_ok.mp h
  obtain ⟨sc, hscope, h⟩ := bind_eq_ok.mp h
  obtain ⟨joined, -, h⟩ := bind_eq_ok.mp h
  obtain ⟨keys, -, h⟩ := bind_eq_ok.mp h
  obtain ⟨metrics, -, h⟩ := bind_eq_ok.mp h
  obtain ⟨derived, -, h⟩ := bind_eq_ok.mp h
  split at h
  · cases h
  · cases h
    exact hscope

/-- A valid configuration, over models that are mapped, is compiled to a statement that orders by its own labels, or
refused with a report error that is answered as a fault of the request, or refused for a truth value in an order.
The last is so exactly when a filter puts a truth value in an order, and with an equality in its place, and
without the filters behind it, the configuration would be compiled. -/
theorem analytics_refusals {j : Json} {c : Config} (hread : Config.reader j = .valid c) (hmaps : t.MapsAll) :
    ((∃ st, t.analytics c = .ok st ∧ ∀ o ∈ st.orderBy, o.outputAlias ∈ st.outputs.map (·.label)) ∨
      (∃ e, t.analytics c = .error (.report e) ∧ (e.status = 400 ∨ e.status = 409)) ∨
      t.analytics c = .error .orderedTruth) ∧
    (t.analytics c = .error .orderedTruth ↔
      ∃ before f after, c.filters = before ++ f :: after ∧ OrdersTruth f ∧
        ∃ st, t.analytics { c with filters := before ++ [asEquality f] } = .ok st) := by
  have hanalytics := t.analytics_eq_unfiltered c
  have hfits := Config.objection_eq_none_iff.mp (Config.wellFormed_of_reader hread).fits
  cases hbase : t.unfiltered c with
  | error e =>
    obtain ⟨r, rfl, hstatus⟩ := t.failsOnly_unfiltered hmaps c e hbase
    have hrefused (filters : List Filter.Comparison) :
        t.analytics { c with filters } = .error (.report r) := by
      rw [hanalytics, hbase]
      rfl
    refine ⟨.inr (.inl ⟨r, hrefused c.filters, hstatus⟩), ?_⟩
    constructor
    · intro h
      cases (hrefused c.filters).symm.trans h
    · rintro ⟨before, f, after, -, -, st, hst⟩
      cases (hrefused _).symm.trans hst
  | ok p =>
    have hlocate (ref : FieldRef) := Scope.failsOnly_locate (Target.scope_of_unfiltered hbase) hmaps ref
    have hfilters (filters : List Filter.Comparison) :
        t.analytics { c with filters } = (filters.mapM p.1.condition).map p.2 := by
      rw [hanalytics, hbase, bind_ok]
    constructor
    · have hcompiled := hfilters c.filters
      cases hconditions : c.filters.mapM p.1.condition with
      | ok conditions =>
        rw [hconditions] at hcompiled
        refine .inl ⟨_, hcompiled, fun o ho => ?_⟩
        obtain ⟨_, _, _, _, _, -, -, -, -, -, -, hst⟩ := Target.analytics_parts hcompiled
        rw [hst] at ho
        rw [labels_of_analytics hcompiled]
        exact hfits.order o ho
      | error e =>
        rw [hconditions] at hcompiled
        obtain ⟨f, -, hf⟩ := Outcome.exists_of_mapM_eq_error hconditions
        rcases Scope.failsOnly_condition hlocate f e hf with ⟨r, rfl, hstatus⟩ | ⟨rfl, -⟩
        · exact .inr (.inl ⟨r, hcompiled, hstatus⟩)
        · exact .inr (.inr hcompiled)
    · have hfailed : t.analytics c = .error .orderedTruth ↔ c.filters.mapM p.1.condition = .error .orderedTruth := by
        rw [← @Outcome.map_eq_error _ _ _ _ p.2, ← hfilters c.filters]
      rw [hfailed, Scope.conditions_eq_orderedTruth_iff hlocate]
      simp only [hfilters, Outcome.exists_map_eq_ok]

/-- Orders by status, as far as their payment compares with true. -/
def paidOrders (operator : String) : Json :=
  .obj [("models", .arr [.str "orders"]),
    ("dimensions", .arr [.obj [("model_id", .str "orders"), ("field_id", .str "status"), ("alias", .str "s")]]),
    ("filters", .arr [.obj [("left", .obj [("model_id", .str "orders"), ("field_id", .str "is_paid")]),
      ("operator", .str operator), ("value", .bool true)]])]

/-- A payment up to true is refused for the truth value, as the equality in its place is compiled. -/
theorem analytics_refusals_of_payment :
    ∃ c, Config.reader (paidOrders "lte") = .valid c ∧ storedWarehouse.MapsAll ∧
      storedWarehouse.analytics c = .error .orderedTruth := by
  obtain ⟨c, f, hread, hfilters, horders, hequal⟩ : ∃ c f, Config.reader (paidOrders "lte") = .valid c ∧
      c.filters = [] ++ f :: [] ∧ OrdersTruth f ∧
        ∃ st, storedWarehouse.analytics { c with filters := [] ++ [asEquality f] } = .ok st :=
    ⟨_, _, rfl, rfl, ⟨⟨_, rfl⟩, by decide, by decide⟩, _, rfl⟩
  obtain ⟨-, hordered⟩ := analytics_refusals hread mapsAll_storedWarehouse
  exact ⟨c, hread, mapsAll_storedWarehouse, hordered.mpr ⟨[], f, [], hfilters, horders, hequal⟩⟩

/-- A valid configuration over the warehouse is neither compiled nor refused with a report error. -/
theorem ordered_payment_unreported :
    ∃ c, Config.reader (paidOrders "gt") = .valid c ∧ storedWarehouse.MapsAll ∧
      (∀ st, storedWarehouse.analytics c ≠ .ok st) ∧ ∀ e, storedWarehouse.analytics c ≠ .error (.report e) := by
  obtain ⟨c, hread, hfailed⟩ : ∃ c, Config.reader (paidOrders "gt") = .valid c ∧
      storedWarehouse.analytics c = .error .orderedTruth := ⟨_, rfl, rfl⟩
  refine ⟨c, hread, mapsAll_storedWarehouse, fun st hst => ?_, fun e he => ?_⟩
  · cases hfailed.symm.trans hst
  · cases hfailed.symm.trans he

end AdhocReport.Query
