import AdhocReport.Proofs.Query.Assembly
import AdhocReport.Proofs.Query.Joined
set_option autoImplicit false

/-!
# Queries: what is assembled compiles

The parts of a configuration are chosen by aliases and types of selected columns, and compiled by
ids that are looked up again.  Where selected models are mapped and fields of one id have one type,
each part that was chosen is compiled; what remains are joins that do not connect the models, a
query without outputs, and a truth value that a filter puts in an order.
-/

namespace AdhocReport.Query

open AdhocReport.Sql AdhocReport.Join AdhocReport.Collection
open Outcome (bind_eq_ok bind_ok mapM_eq_ok exists_mapM_eq_ok)

variable {t : Target} {sc : Scope} {models : List String}

/-! ## Lookups -/

/-- The model is mapped: the registry knows it, and its table has a column behind each of its fields. -/
def Target.Maps (t : Target) (model : String) : Prop :=
  ∃ m table, t.registry.model? model = some m ∧ t.table model = .ok (model, table) ∧
    ∀ f ∈ m.fields, ∃ c, table.column? f.backingColumn = some c

/-- Every model that the registry knows is mapped. -/
def Target.MapsAll (t : Target) : Prop := ∀ id m, t.registry.model? id = some m → t.Maps id

/-- The field belongs to a model of the query, and the registry knows it. -/
structure Target.Knows (t : Target) (models : List String) (ref : FieldRef) (f : Schema.Field) : Prop where
  mem : ref.model ∈ models
  known : t.registry.field? ref.model ref.field = some f

theorem Target.exists_scope (hmaps : ∀ m ∈ models, t.Maps m) : ∃ sc, t.scope models = .ok sc := by
  have htables : ∃ tables, models.mapM t.table = .ok tables := by
    refine exists_mapM_eq_ok.mpr fun m hm => ?_
    obtain ⟨_, table, -, htable, -⟩ := hmaps m hm
    exact ⟨_, htable⟩
  obtain ⟨tables, htables⟩ := htables
  exact ⟨_, by rw [Target.scope, htables]; rfl⟩

/-- A known field is found with the column behind it. -/
theorem Scope.locate_of_known (hscope : t.scope models = .ok sc) (hmaps : ∀ m ∈ models, t.Maps m) {ref : FieldRef}
    {f : Schema.Field} (h : t.Knows models ref f) : ∃ c, sc.locate ref = .ok ⟨⟨ref.model, c⟩, f⟩ := by
  obtain ⟨m, table, hmodel, htable, hcolumns⟩ := hmaps _ h.mem
  have hlookup := (Scope.lookup_tables hscope ref.model table).mpr ⟨h.mem, htable⟩
  have hmem : f ∈ m.fields := by
    have hknown := h.known
    simp only [Schema.Registry.field?, hmodel] at hknown
    exact mem_of_field? hknown
  obtain ⟨c, hc⟩ := hcolumns f hmem
  refine ⟨c, ?_⟩
  rw [Scope.locate, hlookup]
  simp only [(Target.tables_of_scope hscope).1, h.known, hc]

theorem Scope.equality_of_known (hscope : t.scope models = .ok sc) (hmaps : ∀ m ∈ models, t.Maps m)
    {j : Join.Condition} {l r : Schema.Field} (hl : t.Knows models j.left l) (hr : t.Knows models j.right r) :
    ∃ e, sc.equality j = .ok e := by
  obtain ⟨lc, hlc⟩ := Scope.locate_of_known hscope hmaps hl
  obtain ⟨rc, hrc⟩ := Scope.locate_of_known hscope hmaps hr
  refine ⟨⟨⟨j.left.model, lc⟩, ⟨j.right.model, rc⟩⟩, ?_⟩
  rw [Scope.equality, hlc, hrc]
  rfl

/-! ## Outputs -/

mutual

/-- A tree compiles when each of its columns does. -/
theorem exists_scalarOf (d : Dialect) (column : FieldRef → Except Failure Scalar) :
    (e : Expr) → (∀ ref ∈ e.columns, ∃ v, column ref = .ok v) → ∃ v, scalarOf d column e = .ok v
  | .column ref, h => h ref (List.mem_singleton.mpr rfl)
  | .literal v, _ => ⟨_, rfl⟩
  | .unary sign e, h => by
    obtain ⟨v, hv⟩ := exists_scalarOf d column e h
    cases sign with
    | plus => exact ⟨v, hv⟩
    | minus => exact ⟨.negated v, by rw [scalarOf, hv]; rfl⟩
  | .binary op l r, h => by
    obtain ⟨hl, hr⟩ := List.forall_mem_append.mp h
    obtain ⟨v, hv⟩ := exists_scalarOf d column l hl
    obtain ⟨w, hw⟩ := exists_scalarOf d column r hr
    exact ⟨.operation d op v w, by rw [scalarOf, hv, hw]; rfl⟩
  | .call f args, h => by
    obtain ⟨vs, hvs⟩ := exists_scalarsOf d column args h
    exact ⟨.call f vs, by rw [scalarOf, hvs]; rfl⟩

theorem exists_scalarsOf (d : Dialect) (column : FieldRef → Except Failure Scalar) :
    (args : List Expr) → (∀ ref ∈ Expr.columnsOfArgs args, ∃ v, column ref = .ok v) →
      ∃ vs, scalarsOf d column args = .ok vs
  | [], _ => ⟨[], rfl⟩
  | e :: rest, h => by
    obtain ⟨he, hrest⟩ := List.forall_mem_append.mp h
    obtain ⟨v, hv⟩ := exists_scalarOf d column e he
    obtain ⟨vs, hvs⟩ := exists_scalarsOf d column rest hrest
    exact ⟨v :: vs, by rw [scalarsOf, hv, hvs]; rfl⟩

end

section Outputs

variable (hscope : t.scope models = .ok sc) (hmaps : ∀ m ∈ models, t.Maps m)

include hscope hmaps

theorem Scope.derived_of_known {d : DerivedColumn} (h : ∀ ref ∈ d.tree.columns, ∃ f, t.Knows models ref f)
    (dialect : Dialect) (grouped : Bool) :
    ∃ o, sc.derived dialect grouped d = .ok o ∧ o.label = d.outputAlias := by
  have hscalar : ∀ ref ∈ d.tree.columns, ∃ v, sc.scalar ref = .ok v := by
    intro ref href
    obtain ⟨f, hf⟩ := h ref href
    obtain ⟨c, hc⟩ := Scope.locate_of_known hscope hmaps hf
    exact ⟨_, by rw [Scope.scalar, hc]; rfl⟩
  have hsummed : ∀ ref ∈ d.tree.columns, ∃ v, sc.summed ref = .ok v := by
    intro ref href
    obtain ⟨f, hf⟩ := h ref href
    obtain ⟨c, hc⟩ := Scope.locate_of_known hscope hmaps hf
    exact ⟨_, by rw [Scope.summed, hc]; rfl⟩
  obtain ⟨v, hv⟩ := exists_scalarOf dialect sc.scalar d.tree hscalar
  obtain ⟨w, hw⟩ := exists_scalarOf dialect sc.summed d.tree hsummed
  unfold Scope.derived
  cases grouped with
  | false =>
    rw [hv]
    exact ⟨_, rfl, rfl⟩
  | true =>
    cases d.kind with
    | row =>
      rw [hv]
      exact ⟨_, rfl, rfl⟩
    | aggregate =>
      rw [hw]
      exact ⟨_, rfl, rfl⟩

theorem Scope.dimension_of_known {d : Dimension} {f : Schema.Field} (h : t.Knows models d.ref f)
    (hdate : d.bucket ≠ none → f.type = .date) : ∃ o, sc.dimension d = .ok o ∧ o.label = d.outputAlias := by
  obtain ⟨c, hc⟩ := Scope.locate_of_known hscope hmaps h
  rw [Scope.dimension, hc, bind_ok]
  cases hbucket : d.bucket with
  | none => exact ⟨_, rfl, rfl⟩
  | some b =>
    have htype := hdate (by simp [hbucket])
    simp only [htype, beq_self_eq_true, if_true]
    exact ⟨_, rfl, rfl⟩

theorem Scope.metric_of_known {m : Metric} {f : Schema.Field} (h : t.Knows models m.ref f)
    (hnumeric : f.type.isNumeric = true) : ∃ o, sc.metric m = .ok o ∧ o.label = m.outputAlias := by
  obtain ⟨c, hc⟩ := Scope.locate_of_known hscope hmaps h
  rw [Scope.metric, hc, bind_ok]
  simp only [hnumeric, Bool.or_true, if_true]
  exact ⟨_, rfl, rfl⟩

end Outputs

/-! ## Filters -/

/-- The comparison puts a truth value in an order. -/
def OrdersTruth (f : Filter.Comparison) : Prop :=
  (∃ b, f.value = .truth b) ∧ f.comparator ≠ .eq ∧ f.comparator ≠ .neq

theorem Scope.condition_of_ordersTruth {f : Filter.Comparison} {found : Located} (hfound : sc.locate f.left = .ok found)
    (h : OrdersTruth f) : sc.condition f = .error .orderedTruth := by
  obtain ⟨⟨b, hb⟩, heq, hneq⟩ := h
  rw [Scope.condition, hfound, bind_ok, hb]
  cases hcomparator : f.comparator with
  | eq => exact absurd hcomparator heq
  | neq => exact absurd hcomparator hneq
  | _ => rfl

/-- Any other comparison on a known field becomes a condition. -/
theorem Scope.condition_eq_compare {f : Filter.Comparison} {found : Located} (hfound : sc.locate f.left = .ok found)
    (h : ¬ OrdersTruth f) : sc.condition f = .ok (.compare found.column f.comparator f.value) := by
  rw [Scope.condition, hfound, bind_ok]
  cases hvalue : f.value with
  | truth b =>
    cases hcomparator : f.comparator with
    | eq => rfl
    | neq => rfl
    | _ => exact absurd ⟨⟨b, hvalue⟩, by simp [hcomparator], by simp [hcomparator]⟩ h
  | _ => rfl

theorem Scope.condition_of_not {f : Filter.Comparison} {found : Located} (hfound : sc.locate f.left = .ok found)
    (h : ¬ OrdersTruth f) : ∃ c, sc.condition f = .ok c :=
  ⟨_, Scope.condition_eq_compare hfound h⟩

/-- Filters on known fields become conditions, unless one of them puts a truth value in an order. -/
theorem Scope.conditions_of_located {filters : List Filter.Comparison}
    (hlocated : ∀ f ∈ filters, ∃ found, sc.locate f.left = .ok found) :
    ((∃ f ∈ filters, OrdersTruth f) → filters.mapM sc.condition = .error .orderedTruth) ∧
      ((∀ f ∈ filters, ¬ OrdersTruth f) → ∃ cs, filters.mapM sc.condition = .ok cs) := by
  constructor
  · rintro ⟨f, hf, horders⟩
    cases hmap : filters.mapM sc.condition with
    | ok cs =>
      obtain ⟨c, hc⟩ := exists_mapM_eq_ok.mp ⟨cs, hmap⟩ f hf
      obtain ⟨found, hfound⟩ := hlocated f hf
      rw [Scope.condition_of_ordersTruth hfound horders] at hc
      cases hc
    | error failure =>
      obtain ⟨g, hg, hfail⟩ := Outcome.exists_of_mapM_eq_error hmap
      obtain ⟨found, hfound⟩ := hlocated g hg
      by_cases hgorders : OrdersTruth g
      · rw [Scope.condition_of_ordersTruth hfound hgorders] at hfail
        cases hfail
        rfl
      · obtain ⟨c, hc⟩ := Scope.condition_of_not hfound hgorders
        rw [hc] at hfail
        cases hfail
  · intro hnone
    refine exists_mapM_eq_ok.mpr fun f hf => ?_
    obtain ⟨found, hfound⟩ := hlocated f hf
    exact Scope.condition_of_not hfound (hnone f hf)

/-! ## The statement -/

/-- Outputs bear the labels of what they are compiled from. -/
theorem labels_of_forall₂ {α : Type} {compile : α → Except Failure Output} (label : α → String) {xs : List α}
    {os : List Output} (hpairs : List.Forall₂ (fun x o => compile x = .ok o) xs os)
    (hlabel : ∀ x ∈ xs, ∀ o, compile x = .ok o → o.label = label x) : os.map (·.label) = xs.map label := by
  induction hpairs with
  | nil => rfl
  | cons hx _ ih =>
    obtain ⟨hfirst, hrest⟩ := List.forall_mem_cons.mp hlabel
    rw [List.map_cons, List.map_cons, hfirst _ hx, ih hrest]

theorem labels_of_compiled {α : Type} {compile : α → Except Failure Output} (label : α → String) {xs : List α}
    (h : ∀ x ∈ xs, ∃ o, compile x = .ok o ∧ o.label = label x) :
    ∃ os, xs.mapM compile = .ok os ∧ os.map (·.label) = xs.map label := by
  obtain ⟨os, hos⟩ := exists_mapM_eq_ok.mpr fun x hx => (h x hx).imp fun o ho => ho.1
  refine ⟨os, hos, labels_of_forall₂ label (mapM_eq_ok.mp hos) fun x hx o ho => ?_⟩
  obtain ⟨o', ho', hlabel⟩ := h x hx
  cases ho.symm.trans ho'
  exact hlabel

/-- Every part of the configuration can be looked up, and has the type that its use asks for. -/
structure Target.Supports (t : Target) (c : Config) : Prop where
  filled : c.models ≠ []
  maps : ∀ m ∈ c.models, t.Maps m
  joins : ∀ j ∈ c.joins, (∃ f, t.Knows c.models j.left f) ∧ ∃ f, t.Knows c.models j.right f
  filters : ∀ f ∈ c.filters, ∃ field, t.Knows c.models f.left field
  metrics : ∀ m ∈ c.metrics, ∃ f, t.Knows c.models m.ref f ∧ f.type.isNumeric = true
  dimensions : ∀ d ∈ c.dimensions, ∃ f, t.Knows c.models d.ref f ∧ (d.bucket ≠ none → f.type = .date)
  derived : ∀ d ∈ c.derivedFields, ∀ ref ∈ d.tree.columns, ∃ f, t.Knows c.models ref f
  fresh : staleIds c.models c.derivedFields = []

/-- Each two selected models are linked by the joins. -/
def Config.Connected (c : Config) : Prop :=
  ∀ m ∈ c.models, ∀ n ∈ c.models, Linked c.models (c.joins.map Join.Condition.models) m n

theorem Config.connected_iff {c : Config} {first : String} (hfirst : c.models.head? = some first) :
    c.Connected ↔ ∀ m ∈ c.models, Linked c.models (c.joins.map Join.Condition.models) first m := by
  have hmem : first ∈ c.models := List.mem_of_head? hfirst
  constructor
  · intro h m hm
    exact h first hmem m hm
  · intro h m hm n hn
    exact (h m hm).symm.trans (h n hn)

/-- The outcome of compiling: what keeps a supported configuration from being compiled are joins that do not
connect its models, then a lack of outputs, then a truth value in an order. -/
structure Target.Outcome (t : Target) (c : Config) : Prop where
  disconnected : ¬ c.Connected → ∃ ms, t.analytics c = .error (.report (.query (.disconnected ms)))
  empty : c.Connected → c.outputAliases = [] → t.analytics c = .error (.report (.query .emptyProjection))
  ordersTruth : c.Connected → c.outputAliases ≠ [] → (∃ f ∈ c.filters, OrdersTruth f) →
    t.analytics c = .error .orderedTruth
  compiled : c.Connected → c.outputAliases ≠ [] → (∀ f ∈ c.filters, ¬ OrdersTruth f) →
    ∃ st, t.analytics c = .ok st ∧ st.outputs.map (·.label) = c.outputAliases ∧ st.orderBy = c.orderBy

/-- The cases of an outcome are all there are. -/
theorem Target.Outcome.cases {c : Config} (h : t.Outcome c) :
    (¬ c.Connected ∧ ∃ ms, t.analytics c = .error (.report (.query (.disconnected ms)))) ∨
      (c.outputAliases = [] ∧ t.analytics c = .error (.report (.query .emptyProjection))) ∨
      t.analytics c = .error .orderedTruth ∨
      ∃ st, t.analytics c = .ok st ∧ st.outputs.map (·.label) = c.outputAliases ∧ st.orderBy = c.orderBy := by
  by_cases hconnected : c.Connected
  · by_cases hnone : c.outputAliases = []
    · exact .inr (.inl ⟨hnone, h.empty hconnected hnone⟩)
    · by_cases horders : ∃ f ∈ c.filters, OrdersTruth f
      · exact .inr (.inr (.inl (h.ordersTruth hconnected hnone horders)))
      · refine .inr (.inr (.inr (h.compiled hconnected hnone fun f hf hf' => horders ⟨f, hf, hf'⟩)))
  · exact .inl ⟨hconnected, h.disconnected hconnected⟩

theorem Target.Supports.outcome {c : Config} (h : t.Supports c) : t.Outcome c := by
  obtain ⟨first, hfirst⟩ : ∃ first, c.models.head? = some first := by
    cases hmodels : c.models with
    | nil => exact absurd hmodels h.filled
    | cons m rest => exact ⟨m, rfl⟩
  obtain ⟨sc, hscope⟩ := Target.exists_scope h.maps
  have hcurrent : current c.models c.derivedFields = .ok () := by
    rw [current, ensureCurrent, h.fresh]
    rfl
  have hequalities : ∀ j ∈ usableJoins c.models c.joins, ∃ e, sc.equality j = .ok e := by
    intro j hj
    obtain ⟨⟨l, hl⟩, r, hr⟩ := h.joins j (List.mem_filter.mp hj).1
    exact Scope.equality_of_known hscope h.maps hl hr
  have hjoined (hconnected : c.Connected) : ∃ acc, sc.join c.models c.joins = .ok acc := by
    obtain ⟨acc, _, _, hacc, -⟩ := Scope.join_of_connected hfirst hscope hequalities
      ((Config.connected_iff hfirst).mp hconnected)
    exact ⟨acc, hacc⟩
  obtain ⟨keys, hkeys, hkeyLabels⟩ := labels_of_compiled (·.outputAlias) fun d hd =>
    (h.dimensions d hd).elim fun f hf => Scope.dimension_of_known hscope h.maps hf.1 hf.2
  obtain ⟨metrics, hmetrics, hmetricLabels⟩ := labels_of_compiled (·.outputAlias) fun m hm =>
    (h.metrics m hm).elim fun f hf => Scope.metric_of_known hscope h.maps hf.1 hf.2
  obtain ⟨derived, hderived, hderivedLabels⟩ := labels_of_compiled (·.outputAlias) fun d hd =>
    Scope.derived_of_known hscope h.maps (h.derived d hd) t.dialect (!(c.metrics.isEmpty && c.dimensions.isEmpty))
  have hlabels : keys.map (·.label) ++ metrics.map (·.label) ++ derived.map (·.label) = c.outputAliases := by
    rw [hkeyLabels, hmetricLabels, hderivedLabels, Config.outputAliases]
  have hempty : (keys.isEmpty && metrics.isEmpty && derived.isEmpty) = true ↔ c.outputAliases = [] := by
    simp [← hlabels, and_assoc]
  have hlocated : ∀ f ∈ c.filters, ∃ found, sc.locate f.left = .ok found := fun f hf =>
    (h.filters f hf).elim fun field hfield => (Scope.locate_of_known hscope h.maps hfield).imp' _ fun _ hc => hc
  obtain ⟨hrefused, hconditions⟩ := Scope.conditions_of_located hlocated
  have hanalytics : t.analytics c = (do
      let joined ← sc.join c.models c.joins
      if keys.isEmpty && metrics.isEmpty && derived.isEmpty then faulty .emptyProjection
      else
        let conditions ← c.filters.mapM sc.condition
        .ok ⟨keys, metrics ++ derived, joined.source, joined.conditions.map .equal ++ conditions, c.orderBy,
          t.limit c.limit⟩) := by
    rw [Target.analytics, hcurrent, bind_ok, hscope, bind_ok]
    simp only [hkeys, hmetrics, hderived, bind_ok]
  refine ⟨fun hconnected => ?_, fun hconnected hnone => ?_, fun hconnected hsome horders => ?_,
    fun hconnected hsome horders => ?_⟩
  · rw [Config.connected_iff hfirst] at hconnected
    rw [hanalytics, Scope.join_of_disconnected hfirst hconnected]
    exact ⟨_, rfl⟩
  · obtain ⟨acc, hacc⟩ := hjoined hconnected
    rw [hanalytics, hacc, bind_ok, if_pos (hempty.mpr hnone)]
    rfl
  · obtain ⟨acc, hacc⟩ := hjoined hconnected
    rw [hanalytics, hacc, bind_ok, if_neg (mt hempty.mp hsome), hrefused horders]
    rfl
  · obtain ⟨acc, hacc⟩ := hjoined hconnected
    obtain ⟨conditions, hcs⟩ := hconditions horders
    rw [hanalytics, hacc, bind_ok, if_neg (mt hempty.mp hsome), hcs, bind_ok]
    refine ⟨_, rfl, ?_, rfl⟩
    rw [Statement.outputs, List.map_append, List.map_append, ← List.append_assoc]
    exact hlabels

/-! ## What was assembled -/

variable {s : Selection} {registry : Schema.Registry} {settings : Settings} {fields : List DerivedField}

/-- The fields of a model that have one id have one type. -/
def OneTyped (m : Schema.Model) : Prop := ∀ f ∈ m.fields, ∀ g ∈ m.fields, f.id = g.id → f.type = g.type

/-- A selected column is known under the type it was selected with. -/
theorem known_of_selected {c : ColumnOption} (h : c.Selected s registry) (ht : t.registry = registry)
    (htypes : ∀ model ∈ s.models, ∀ m, registry.model? model = some m → OneTyped m) :
    ∃ f, t.Knows (distinct s.models) c.ref f ∧ f.type = c.type := by
  obtain ⟨m, hm, f, hf, hid, htype⟩ := h.known
  obtain ⟨g, hg⟩ : ∃ g, m.fields.find? (fun g => g.id == c.ref.field) = some g := by
    cases hfind : m.fields.find? fun g => g.id == c.ref.field with
    | some g => exact ⟨g, rfl⟩
    | none =>
      have hnot := List.find?_eq_none.mp hfind f hf
      simp [hid] at hnot
  have hgid : g.id = c.ref.field := by simpa using List.find?_some hg
  refine ⟨g, ⟨mem_distinct.mpr h.model_mem, ?_⟩, ?_⟩
  · simp only [ht, Schema.Registry.field?, hm, Schema.Model.field?, hg]
  · rw [← htype]
    exact htypes _ h.model_mem m hm g (List.mem_of_find?_eq_some hg) f hf (hgid.trans hid.symm)

/-- A column that bears the alias of a numeric one is numeric, where aliases tell columns apart. -/
theorem isNumeric_of_measured {c : ColumnOption} (h : c.Measured (availableColumns s registry))
    (haliases : ∀ c ∈ availableColumns s registry, ∀ d ∈ availableColumns s registry,
      c.outputAlias = d.outputAlias → c = d) : c.type.isNumeric = true := by
  obtain ⟨d, hd, hsame⟩ := List.mem_map.mp h.numeric
  obtain ⟨hmem, hnumeric⟩ := List.mem_filter.mp hd
  rw [haliases c h.mem d hmem hsame.symm]
  exact hnumeric

/-- The models of a field that a selection admits are selected. -/
theorem models_of_admitted {f : DerivedField} (h : s.Admits f) {e : Expr} (hmodels : f.referencedModels = e.models) :
    ∀ m ∈ e.models, m ∈ distinct s.models := by
  intro m hm
  refine mem_distinct.mpr (h.current m ?_)
  rw [DerivedField.effectiveModels, hmodels]
  cases hempty : e.models with
  | nil =>
    rw [hempty] at hm
    cases hm
  | cons n rest =>
    rw [hempty] at hm
    exact hm

/-- Derived columns that were assembled are those of admitted fields, with their trees and their models. -/
theorem derived_of_assembled {columns : List DerivedColumn}
    (hcolumns : derivedColumns (chosenFields s fields) = .ok columns)
    (hfields : ∀ f ∈ fields, ∀ e, f.tree = some e → e.Trimmed ∧ f.referencedModels = e.models) {d : DerivedColumn}
    (hd : d ∈ columns) :
    ∃ f ∈ fields, f.tree = some d.tree ∧ d.referencedModels = d.tree.models ∧
      ∀ m ∈ d.tree.models, m ∈ distinct s.models := by
  have htrimmed := trimmed_of_written (s := s) fun f hf e he => (hfields f hf e he).1
  obtain ⟨⟨g, e⟩, hp, hof⟩ := Outcome.exists_of_mem_right (derivedColumns_eq_ok htrimmed hcolumns).1 hd
  obtain ⟨f, hf, hadmits, he, rfl⟩ := mem_written.mp hp
  obtain rfl : d.tree = e := hof.tree_eq
  have hmodels := (hfields f hf _ he).2
  have hreconciled : (f.reconciled (distinct s.models)).referencedModels = f.referencedModels := by
    unfold DerivedField.reconciled
    split <;> rfl
  refine ⟨f, hf, he, ?_, models_of_admitted hadmits hmodels⟩
  rw [hof.referencedModels_eq, hreconciled, hmodels]

/-- What was assembled is supported, where selected models are mapped, fields of one id have one type, aliases
tell columns apart, and joins and trees name known fields. -/
theorem supports_of_assembled (hs : s.Sound) {a : Assembly} (h : assemble s fields registry settings = .ok a)
    (ht : t.registry = registry) (hmaps : ∀ m ∈ s.models, t.Maps m)
    (htypes : ∀ model ∈ s.models, ∀ m, registry.model? model = some m → OneTyped m)
    (haliases : ∀ c ∈ availableColumns s registry, ∀ d ∈ availableColumns s registry,
      c.outputAlias = d.outputAlias → c = d)
    (hjoins : ∀ j ∈ a.config.joins, (registry.field? j.left.model j.left.field).isSome = true ∧
      (registry.field? j.right.model j.right.field).isSome = true)
    (hfields : ∀ f ∈ fields, ∀ e, f.tree = some e → e.Trimmed ∧ f.referencedModels = e.models ∧
      ∀ ref ∈ e.columns, (registry.field? ref.model ref.field).isSome = true) :
    t.Supports a.config := by
  obtain ⟨-, columns, hcolumns, hconfig, -⟩ := assemble_eq_ok h
  have hplaced := @drafted_placed s registry settings columns
  have hderived := fun d (hd : d ∈ (drafted s registry settings columns).derivedFields) =>
    derived_of_assembled hcolumns (fun f hf e he => ⟨(hfields f hf e he).1, (hfields f hf e he).2.1⟩)
      ((withFreeAliases_free _ columns).2 d hd).1
  have hknown {ref : FieldRef} (hmem : ref.model ∈ distinct s.models)
      (hsome : (registry.field? ref.model ref.field).isSome = true) : ∃ f, t.Knows (distinct s.models) ref f := by
    obtain ⟨f, hf⟩ := Option.isSome_iff_exists.mp hsome
    exact ⟨f, hmem, by rw [ht, hf]⟩
  rw [hconfig] at hjoins ⊢
  refine ⟨fun hempty => ?_, fun m hm => hmaps m (mem_distinct.mp hm), fun j hj => ?_, fun f hf => ?_, fun m hm => ?_,
    fun d hd => ?_, fun d hd ref href => ?_, ?_⟩
  · obtain ⟨m, hm⟩ := List.exists_mem_of_ne_nil _ hs.models
    exact List.ne_nil_of_mem (mem_distinct.mpr hm) hempty
  · exact ⟨hknown (hplaced.joins j hj).1 (hjoins j hj).1, hknown (hplaced.joins j hj).2 (hjoins j hj).2⟩
  · obtain ⟨spec, hspec, hread⟩ := Filter.mem_of_reduce hf
    have hresolved := (List.mem_filter.mp hspec).2
    simp only [isKnownFilter, isResolvable, Bool.and_eq_true, List.contains_iff_mem] at hresolved
    rw [Filter.left_of_comparisonOf hread]
    exact hknown hresolved.1.1 hresolved.1.2
  · obtain ⟨c, hc, b, rfl⟩ := mem_of_pickedMetrics hm
    obtain ⟨f, hf, htype⟩ := known_of_selected (selected_of_mem hc.mem) ht htypes
    exact ⟨f, hf, by rw [htype]; exact isNumeric_of_measured hc haliases⟩
  · obtain ⟨c, hc, hdate, href, -⟩ := mem_of_pickedDimensions hd
    obtain ⟨f, hf, htype⟩ := known_of_selected (selected_of_mem hc) ht htypes
    rw [href]
    exact ⟨f, hf, fun hbucket => htype.trans (hdate hbucket)⟩
  · obtain ⟨f, hf, he, -, hmodels⟩ := hderived d hd
    exact hknown (hmodels _ (Expr.mem_models.mpr ⟨ref, href, rfl⟩)) ((hfields f hf _ he).2.2 ref href)
  · rw [staleIds, List.map_eq_nil_iff, List.filter_eq_nil_iff]
    intro d hd
    obtain ⟨f, hf, he, hreferenced, hmodels⟩ := hderived d hd
    have hall : ∀ m ∈ d.referencedModels ++ d.tree.columns.map (·.model), m ∈ distinct s.models := by
      rw [hreferenced, List.forall_mem_append]
      refine ⟨hmodels, fun m hm => hmodels m ?_⟩
      obtain ⟨ref, href, rfl⟩ := List.mem_map.mp hm
      exact Expr.mem_models.mpr ⟨ref, href, rfl⟩
    rw [Bool.not_eq_true', Bool.not_eq_false]
    exact List.all_eq_true.mpr fun m hm => List.contains_iff_mem.mpr (hall m hm)

/-- What is assembled of a selection compiles, unless the kept joins do not connect the selected models, or
nothing is put out, or a filter puts a truth value in an order.  No report error but the first two occurs, no
name is missing, and every alias that is ordered by labels an output.  Selected models have to be mapped, aliases
to tell columns apart, joins and trees to name known fields, and trees to be of the models that are noted for
them; further, fields of one id have to have one type, and the ids in a tree to be trimmed, as they are in
every tree that is parsed or read. -/
theorem analytics_of_assembled {j : Json} (hs : Selection.reader j = .valid s) {a : Assembly}
    (h : assemble s fields registry settings = .ok a) (ht : t.registry = registry)
    (hmaps : ∀ m ∈ s.models, t.Maps m)
    (htypes : ∀ model ∈ s.models, ∀ m, registry.model? model = some m → OneTyped m)
    (haliases : ∀ c ∈ availableColumns s registry, ∀ d ∈ availableColumns s registry,
      c.outputAlias = d.outputAlias → c = d)
    (hjoins : ∀ j ∈ a.config.joins, (registry.field? j.left.model j.left.field).isSome = true ∧
      (registry.field? j.right.model j.right.field).isSome = true)
    (hfields : ∀ f ∈ fields, ∀ e, f.tree = some e → e.Trimmed ∧ f.referencedModels = e.models ∧
      ∀ ref ∈ e.columns, (registry.field? ref.model ref.field).isSome = true) :
    (∀ e, t.analytics a.config = .error (.report e) →
      (∃ ms, e = .query (.disconnected ms) ∧ ¬ a.config.Connected) ∨
        e = .query .emptyProjection ∧ a.config.outputAliases = []) ∧
    (∀ name, t.analytics a.config ≠ .error (.missingKey name)) ∧
    (∀ st, t.analytics a.config = .ok st → ∀ o ∈ st.orderBy, o.outputAlias ∈ st.outputs.map (·.label)) ∧
    t.Outcome a.config := by
  have houtcome := (supports_of_assembled (Selection.sound_of_reader hs) h ht hmaps htypes haliases hjoins
    hfields).outcome
  have horder : ∀ o ∈ a.config.orderBy, o.outputAlias ∈ a.config.outputAliases := by
    obtain ⟨-, columns, -, -, hobjection⟩ := assemble_eq_ok h
    exact (Config.objection_eq_none_iff.mp hobjection).order
  have hcases := houtcome.cases
  refine ⟨fun e he => ?_, fun name hname => ?_, fun st hst o ho => ?_, houtcome⟩
  · rcases hcases with ⟨hconnected, ms, hms⟩ | ⟨hnone, hempty⟩ | hordered | ⟨st, hst, -⟩
    · cases he.symm.trans hms
      exact .inl ⟨ms, rfl, hconnected⟩
    · cases he.symm.trans hempty
      exact .inr ⟨rfl, hnone⟩
    · cases he.symm.trans hordered
    · cases he.symm.trans hst
  · rcases hcases with ⟨-, ms, hms⟩ | ⟨-, hempty⟩ | hordered | ⟨st, hst, -⟩
    · cases hname.symm.trans hms
    · cases hname.symm.trans hempty
    · cases hname.symm.trans hordered
    · cases hname.symm.trans hst
  · rcases hcases with ⟨-, ms, hms⟩ | ⟨-, hempty⟩ | hordered | ⟨st', hst', hlabels, horderBy⟩
    · cases hst.symm.trans hms
    · cases hst.symm.trans hempty
    · cases hst.symm.trans hordered
    · cases hst.symm.trans hst'
      rw [horderBy] at ho
      rw [hlabels]
      exact horder o ho

/-- A target with one table `t`, whose columns have these names. -/
def oneTable (registry : Schema.Registry) (columns : List String) : Target :=
  ⟨registry, [⟨"t", none, columns.map fun c => ⟨c, c, "", .other, [], false, false⟩⟩], .sqlite, none⟩

/-- A field of a tree with one column. -/
def columnField (ref : FieldRef) : DerivedField :=
  { DerivedField.bare "d" "d" ref.path with tree := some (.column ref), referencedModels := [ref.model] }

/-- The columns `x` and `y` and the field `m.x` compile to three outputs. -/
theorem analytics_of_assembled_columns :
    ∃ a st, assemble (picking "m" ["x", "y"]) [columnField ⟨"m", "x"⟩] (numbersAndTexts "x" "y") Settings.standard =
        .ok a ∧
      (oneTable (numbersAndTexts "x" "y") ["x", "y"]).analytics a.config = .ok st ∧
      (∀ o ∈ st.orderBy, o.outputAlias ∈ st.outputs.map (·.label)) ∧
      st.outputs.map (·.label) = ["m__y", "m__x_sum", "d"] := by
  obtain ⟨a, hassemble, hmodels, hjoins, hfilters, haliases⟩ :
      ∃ a, assemble (picking "m" ["x", "y"]) [columnField ⟨"m", "x"⟩] (numbersAndTexts "x" "y")
          Settings.standard = .ok a ∧
        a.config.models = ["m"] ∧ a.config.joins = [] ∧ a.config.filters = [] ∧
        a.config.outputAliases = ["m__y", "m__x_sum", "d"] := ⟨_, rfl, rfl, rfl, rfl, rfl⟩
  have hread : Selection.reader (pickingRecord "m" ["x", "y"]) = .valid (picking "m" ["x", "y"]) := rfl
  have hmaps : ∀ m ∈ (picking "m" ["x", "y"]).models, (oneTable (numbersAndTexts "x" "y") ["x", "y"]).Maps m := by
    refine List.forall_mem_singleton.mpr ⟨_, _, rfl, rfl, ?_⟩
    refine List.forall_mem_cons.mpr ⟨⟨_, rfl⟩, List.forall_mem_singleton.mpr ⟨_, rfl⟩⟩
  have htypes : ∀ model ∈ (picking "m" ["x", "y"]).models, ∀ m,
      (numbersAndTexts "x" "y").model? model = some m → OneTyped m := by
    refine List.forall_mem_singleton.mpr fun m hm => ?_
    cases hm
    unfold OneTyped
    decide +kernel
  have hcolumns : ∀ c ∈ availableColumns (picking "m" ["x", "y"]) (numbersAndTexts "x" "y"),
      ∀ d ∈ availableColumns (picking "m" ["x", "y"]) (numbersAndTexts "x" "y"),
        c.outputAlias = d.outputAlias → c = d := by
    decide +kernel
  have hfields : ∀ f ∈ [columnField ⟨"m", "x"⟩], ∀ e, f.tree = some e → e.Trimmed ∧ f.referencedModels = e.models ∧
      ∀ ref ∈ e.columns, ((numbersAndTexts "x" "y").field? ref.model ref.field).isSome = true := by
    refine List.forall_mem_singleton.mpr fun e he => ?_
    cases he
    refine ⟨List.forall_mem_singleton.mpr ⟨by decide, by decide, by decide +kernel, by decide +kernel⟩, ?_, ?_⟩
    · decide +kernel
    · decide +kernel
  obtain ⟨-, -, horder, houtcome⟩ := analytics_of_assembled hread hassemble
    (t := oneTable (numbersAndTexts "x" "y") ["x", "y"]) rfl hmaps htypes hcolumns
    (by rw [hjoins]; exact List.forall_mem_nil _) hfields
  have hconnected : a.config.Connected := by
    intro m hm n hn
    rw [hmodels, List.mem_singleton] at hm hn
    rw [hm, hn]
    exact .refl
  obtain ⟨st, hst, hlabels, -⟩ := houtcome.compiled hconnected (by rw [haliases]; exact List.cons_ne_nil _ _)
    (by rw [hfilters]; exact List.forall_mem_nil _)
  exact ⟨a, st, hassemble, hst, horder st hst, hlabels.trans haliases⟩

/-- A model with two fields `x`, a text before a number: a sum of the number is chosen, and the text is found
when it is compiled. -/
def textThenNumber : Schema.Registry := oneModel "m" [("x", .string, "c1"), ("x", .number, "c2")]

/-- Two assembled configurations that do not compile: one sums a number beside a text of the same id, the other
has a tree whose model is written with a blank in front. -/
theorem analytics_refuses_assembled :
    (∃ a, Selection.reader (pickingRecord "m" ["c2"]) = .valid (picking "m" ["c2"]) ∧
      assemble (picking "m" ["c2"]) [] textThenNumber Settings.standard = .ok a ∧
      (∀ m ∈ (picking "m" ["c2"]).models, (oneTable textThenNumber ["c1", "c2"]).Maps m) ∧
      (∀ c ∈ availableColumns (picking "m" ["c2"]) textThenNumber,
        ∀ d ∈ availableColumns (picking "m" ["c2"]) textThenNumber, c.outputAlias = d.outputAlias → c = d) ∧
      a.config.joins = [] ∧
      (oneTable textThenNumber ["c1", "c2"]).analytics a.config =
        .error (.report (.query (.metricOnOtherType "sum" ⟨"m", "x"⟩)))) ∧
    ∃ a, Selection.reader (pickingRecord " m" ["x"]) = .valid (picking " m" ["x"]) ∧
      assemble (picking " m" ["x"]) [columnField ⟨" m", "x"⟩] (oneModel " m" [("x", .number, "x")])
        Settings.standard = .ok a ∧
      (∀ m ∈ (picking " m" ["x"]).models, (oneTable (oneModel " m" [("x", .number, "x")]) ["x"]).Maps m) ∧
      (∀ c ∈ availableColumns (picking " m" ["x"]) (oneModel " m" [("x", .number, "x")]),
        ∀ d ∈ availableColumns (picking " m" ["x"]) (oneModel " m" [("x", .number, "x")]),
          c.outputAlias = d.outputAlias → c = d) ∧
      a.config.joins = [] ∧
      (columnField ⟨" m", "x"⟩).referencedModels = (Expr.column ⟨" m", "x"⟩).models ∧
      ((oneModel " m" [("x", .number, "x")]).field? " m" "x").isSome = true ∧
      (oneTable (oneModel " m" [("x", .number, "x")]) ["x"]).analytics a.config = .error (.report (.stale ["d"])) := by
  refine ⟨⟨_, rfl, rfl, ?_, ?_, rfl, rfl⟩, ⟨_, rfl, rfl, ?_, ?_, rfl, ?_, ?_, rfl⟩⟩
  · refine List.forall_mem_singleton.mpr ⟨_, _, rfl, rfl, ?_⟩
    exact List.forall_mem_cons.mpr ⟨⟨_, rfl⟩, List.forall_mem_singleton.mpr ⟨_, rfl⟩⟩
  · decide +kernel
  · exact List.forall_mem_singleton.mpr ⟨_, _, rfl, rfl, List.forall_mem_singleton.mpr ⟨_, rfl⟩⟩
  · decide +kernel
  · decide +kernel
  · decide +kernel

end AdhocReport.Query
