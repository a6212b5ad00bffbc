import AdhocReport.Proofs.Filter.Comparison
import AdhocReport.Proofs.Query.DerivedColumn
import AdhocReport.Proofs.Query.Fitting
import AdhocReport.Proofs.Query.Picking
set_option autoImplicit false

/-!
# Queries: what is assembled

A selection is drafted into a configuration from its parts: the metrics and the dimension that its
visual picks, its joins and filters between selected models, and the derived columns of its fields.
Of all rules for configurations two can be broken by such a draft.  A derived column has to hold a
tree whose record is read back, and the dimension must not bear the alias of a metric.
-/

namespace AdhocReport

theorem Collection.sortedSet_of_all_eq {xs : List String} {a : String} (hmem : a ∈ xs) (h : ∀ x ∈ xs, x = a) :
    sortedSet xs = [a] := by
  cases xs with
  | nil => cases hmem
  | cons x xs =>
    obtain ⟨rfl, hxs⟩ := List.forall_mem_cons.mp h
    have hnone : (distinct xs).filter (fun y => y ≠ x) = [] := by
      rw [List.filter_eq_nil_iff]
      intro y hy
      simp [hxs y (mem_distinct.mp hy)]
    rw [sortedSet, distinct, hnone]
    rfl

namespace Query

open Outcome (bind_eq_ok)

/-! ## The draft -/

/-- The configuration of a selection with the derived columns of its fields, before it is checked. -/
def drafted (s : Selection) (registry : Schema.Registry) (settings : Settings)
    (columns : List DerivedColumn) : Config :=
  let models := Collection.distinct s.models
  let metrics := pickedMetrics s registry
  let dimensions := pickedDimensions s registry
  let derived := (withFreeAliases (metrics.map (·.outputAlias) ++ dimensions.map (·.outputAlias)) columns).1
  let aliases := metrics.map (·.outputAlias) ++ dimensions.map (·.outputAlias) ++ derived.map (·.outputAlias)
  ⟨models, keptJoins s models, (Filter.reduce (s.filters.filter (isKnownFilter models registry))).filters,
    metrics, dimensions, derived, (keptOrder s aliases metrics).1,
    clampLimit s.limit settings.analyticsDefaultLimit settings.maxRowLimit,
    ⟨s.allowAsync, s.forceAsync, s.templateId, s.cacheTtlSeconds⟩⟩

/-- The models of a selection that the registry does not know. -/
def unknownModels (s : Selection) (registry : Schema.Registry) : List String :=
  (Collection.distinct s.models).filter fun m => !registry.hasModel m

/-- A selection is assembled in three steps that can fail: its models are looked up, the trees of its
fields are written, and the parts are put together. -/
theorem assemble_config (s : Selection) (fields : List DerivedField) (registry : Schema.Registry)
    (settings : Settings) :
    (assemble s fields registry settings).map (·.config) =
      if (unknownModels s registry).isEmpty then do
        let columns ← derivedColumns (chosenFields s fields)
        (drafted s registry settings columns).checked
      else .error (.report (.query (.unknownModels (unknownModels s registry)))) := by
  by_cases hunknown : (unknownModels s registry).isEmpty
  · have hmodels : selectedModels s registry = .ok (Collection.distinct s.models) := if_pos hunknown
    rw [if_pos hunknown, assemble, hmodels]
    change Except.map _ (derivedColumns (chosenFields s fields) >>= _) = _
    cases derivedColumns (chosenFields s fields) with
    | error failure => rfl
    | ok columns =>
      change Except.map _ ((drafted s registry settings columns).checked >>= _) =
        (drafted s registry settings columns).checked
      cases (drafted s registry settings columns).checked <;> rfl
  · have hmodels : selectedModels s registry =
        .error (.report (.query (.unknownModels (unknownModels s registry)))) := if_neg hunknown
    rw [if_neg hunknown, assemble, hmodels]
    rfl

variable {s : Selection} {registry : Schema.Registry} {settings : Settings} {columns : List DerivedColumn}

theorem mem_aliases_of_keptOrder {aliases : List String} {metrics : List Metric}
    (hmetrics : ∀ m ∈ metrics, m.outputAlias ∈ aliases) {o : OrderBy} (h : o ∈ (keptOrder s aliases metrics).1) :
    o.outputAlias ∈ aliases := by
  have hkept : o ∈ s.orderBy.filter (fun o => aliases.contains o.outputAlias) → o.outputAlias ∈ aliases := by
    intro ho
    simpa using (List.mem_filter.mp ho).2
  unfold keptOrder at h
  dsimp only at h
  split at h
  · rename_i m rest _
    rw [List.mem_singleton] at h
    subst h
    exact hmetrics m List.mem_cons_self
  · exact hkept h

theorem one_le_clampLimit (value : Option Int) (default greatest : Int) : 1 ≤ clampLimit value default greatest :=
  Int.le_max_left 1 _

/-- Every part of a drafted configuration is of a selected model. -/
theorem drafted_placed : (drafted s registry settings columns).Placed := by
  refine ⟨Collection.nodup_distinct s.models, fun j hj => ?_, fun r hr => ?_, fun f hf => ?_⟩
  · change j.left.model ∈ Collection.distinct s.models ∧ j.right.model ∈ Collection.distinct s.models
    simpa using (List.mem_filter.mp hj).2
  · refine Collection.mem_distinct.mpr ?_
    rcases List.mem_append.mp hr with hr | hr
    · obtain ⟨m, hm, rfl⟩ := List.mem_map.mp hr
      obtain ⟨c, hc, a, rfl⟩ := mem_of_pickedMetrics hm
      exact (selected_of_mem hc.mem).model_mem
    · obtain ⟨d, hd, rfl⟩ := List.mem_map.mp hr
      obtain ⟨c, hc, -, hsame, -⟩ := mem_of_pickedDimensions hd
      rw [hsame]
      exact (selected_of_mem hc).model_mem
  · obtain ⟨spec, hspec, hread⟩ := Filter.mem_of_reduce hf
    rw [Filter.left_of_comparisonOf hread]
    have hknown := (List.mem_filter.mp hspec).2
    simp only [isKnownFilter, isResolvable, Bool.and_eq_true, List.contains_iff_mem] at hknown
    exact hknown.1.1

/-- The derived columns of a configuration avoid the aliases of its metrics and its dimensions. -/
theorem drafted_derived_free {d : DerivedColumn} (h : d ∈ (drafted s registry settings columns).derivedFields) :
    d.outputAlias ∉ (pickedMetrics s registry).map (·.outputAlias) ∧
      d.outputAlias ∉ (pickedDimensions s registry).map (·.outputAlias) := by
  have hfree := ((withFreeAliases_free _ columns).2 d h).2
  rw [List.mem_append, not_or] at hfree
  exact hfree

/-- The aliases are unique unless a dimension and a metric share one. -/
theorem drafted_aliases_nodup :
    (drafted s registry settings columns).outputAliases.Nodup ↔
      ∀ d ∈ pickedDimensions s registry, ∀ m ∈ pickedMetrics s registry, d.outputAlias ≠ m.outputAlias := by
  change (_ ++ _ ++ List.map _ (drafted s registry settings columns).derivedFields).Nodup ↔ _
  rw [List.nodup_append, List.nodup_append]
  constructor
  · rintro ⟨⟨-, -, happart⟩, -⟩ d hd m hm
    exact happart _ (List.mem_map_of_mem hd) _ (List.mem_map_of_mem hm)
  · intro happart
    refine ⟨⟨nodup_dimensionAliases s registry, nodup_metricAliases s registry, fun a ha b hb => ?_⟩,
      (withFreeAliases_free _ columns).1, fun a ha b hb => ?_⟩
    · obtain ⟨d, hd, rfl⟩ := List.mem_map.mp ha
      obtain ⟨m, hm, rfl⟩ := List.mem_map.mp hb
      exact happart d hd m hm
    · obtain ⟨e, he, rfl⟩ := List.mem_map.mp hb
      obtain ⟨hmetrics, hdimensions⟩ := drafted_derived_free he
      rintro rfl
      rcases List.mem_append.mp ha with ha | ha
      · exact hdimensions ha
      · exact hmetrics ha

/-- A bucketed dimension shares no alias with a metric, so only one without a bucket may. -/
theorem unbucketed_of_shared {d : Dimension} (hd : d ∈ pickedDimensions s registry) {m : Metric}
    (hm : m ∈ pickedMetrics s registry) (h : d.outputAlias = m.outputAlias) : d.bucket = none := by
  obtain ⟨c, -, -, -, hdimension⟩ := mem_of_pickedDimensions hd
  obtain ⟨c', -, a, rfl⟩ := mem_of_pickedMetrics hm
  cases hbucket : d.bucket with
  | none => rfl
  | some b =>
    rw [hdimension, hbucket] at h
    exact absurd h.symm (metricAlias_ne_bucketed _ _ a b)

theorem drafted_order {o : OrderBy} (h : o ∈ (drafted s registry settings columns).orderBy) :
    o.outputAlias ∈ (drafted s registry settings columns).outputAliases := by
  have hmem := mem_aliases_of_keptOrder
    (fun m hm => List.mem_append_left _ (List.mem_append_left _ (List.mem_map_of_mem hm))) h
  rw [Config.outputAliases]
  simp only [List.mem_append] at hmem ⊢
  exact hmem.imp_left Or.symm

/-- Where a dimension and a metric share an alias, it is the only one that is repeated. -/
theorem drafted_repeated {d : Dimension} (hd : d ∈ pickedDimensions s registry) {m : Metric}
    (hm : m ∈ pickedMetrics s registry) (h : d.outputAlias = m.outputAlias) :
    let aliases := (drafted s registry settings columns).outputAliases
    Collection.sortedSet (aliases.filter fun a => 1 < aliases.count a) = [d.outputAlias] := by
  intro aliases
  have hone : (pickedDimensions s registry).map (·.outputAlias) = [d.outputAlias] := by
    rcases pickedDimensions_cases s registry with hnone | ⟨c, -, bucket, -, hone⟩
    · rw [hnone] at hd
      cases hd
    · rw [hone, List.mem_singleton] at hd
      rw [hone, hd]
      rfl
  have hcount (a : String) : aliases.count a = [d.outputAlias].count a +
      ((pickedMetrics s registry).map (·.outputAlias)).count a +
      ((drafted s registry settings columns).derivedFields.map (·.outputAlias)).count a := by
    rw [← hone, ← List.count_append, ← List.count_append]
    rfl
  refine Collection.sortedSet_of_all_eq ?_ fun a ha => ?_
  · have hmetric : 0 < ((pickedMetrics s registry).map (·.outputAlias)).count d.outputAlias := by
      rw [h]
      exact List.count_pos_iff.mpr (List.mem_map_of_mem hm)
    have hmem : d.outputAlias ∈ aliases :=
      List.mem_append_left _ (List.mem_append_left _ (List.mem_map_of_mem hd))
    refine List.mem_filter.mpr ⟨hmem, decide_eq_true ?_⟩
    rw [hcount, List.count_singleton_self]
    omega
  · have htwice : 1 < aliases.count a := of_decide_eq_true (List.mem_filter.mp ha).2
    rw [hcount] at htwice
    have hmetrics := List.nodup_iff_count_le_one.mp (nodup_metricAliases s registry) a
    by_contra hne
    rw [List.count_singleton, if_neg (by simpa using Ne.symm hne)] at htwice
    -- only a derived column could repeat the alias of a metric, and it does not
    have hderived : ((drafted s registry settings columns).derivedFields.map (·.outputAlias)).count a ≤ 1 :=
      List.nodup_iff_count_le_one.mp (withFreeAliases_free _ columns).1 a
    have hboth : 0 < ((drafted s registry settings columns).derivedFields.map (·.outputAlias)).count a := by
      omega
    obtain ⟨e, he, rfl⟩ := List.mem_map.mp (List.count_pos_iff.mp hboth)
    have hfree := List.count_eq_zero_of_not_mem (drafted_derived_free he).1
    omega

/-! ## What is assembled -/

/-- What the reader of selections makes sure of. -/
structure Selection.Sound (s : Selection) : Prop where
  models : s.models ≠ []
  joins : ∀ j ∈ s.joins, j.left.model ≠ j.right.model
  ttl : ∀ n, s.cacheTtlSeconds = some n → 1 ≤ n

theorem Selection.sound_of_reader {j : Json} (h : Selection.reader j = .valid s) : s.Sound := by
  obtain ⟨ms, rfl, hbuilt⟩ := Check.record_eq_valid h
  simp only [Check.Checked.seq_eq_valid, Check.Checked.map_eq_valid] at hbuilt
  obtain ⟨_, ttl, ⟨_, _, ⟨_, _, ⟨_, _, ⟨_, _, ⟨_, _, ⟨_, _, ⟨_, _, ⟨_, _, ⟨_, _, ⟨_, joins, ⟨_, _, ⟨models,
    hmodels, rfl⟩, -, rfl⟩, hjoins, rfl⟩, -, rfl⟩, -, rfl⟩, -, rfl⟩, -, rfl⟩, -, rfl⟩, -, rfl⟩, -, rfl⟩, -, rfl⟩,
    -, rfl⟩, httl, rfl⟩ := hbuilt
  refine ⟨?_, fun c hc => ?_, fun n hn => ?_⟩
  · obtain ⟨i, -, hread⟩ := Check.required_eq_valid hmodels
    exact Check.ne_nil_of_nonEmptyList hread
  · obtain ⟨_, -, i, -, hread⟩ := Check.mem_of_defaulted_list hjoins c hc
    exact Join.Condition.models_ne_of_reader hread
  · obtain rfl : ttl = some n := hn
    rcases Check.defaulted_eq_valid httl with hnone | ⟨i, -, hread⟩
    · cases hnone
    · exact integerFrom_le (Check.nullable_eq_some hread)

theorem checked_eq_ok {c c' : Config} : c.checked = .ok c' ↔ c.objection = none ∧ c = c' := by
  unfold Config.checked
  split
  · rename_i text hobjection
    exact ⟨fun h => (nomatch h), fun h => by rw [hobjection] at h; exact nomatch h.1⟩
  · rename_i hobjection
    exact ⟨fun h => ⟨hobjection, Except.ok.inj h⟩, fun h => by rw [h.2]⟩

/-- What a drafted configuration needs besides its aliases. -/
theorem drafted_wellFormed (hs : s.Sound) (hrecords : ∀ d ∈ columns, ∃ ms, d.record = .obj ms)
    (h : (drafted s registry settings columns).objection = none) :
    (drafted s registry settings columns).WellFormed := by
  refine ⟨fun hempty => ?_, fun j hj => hs.joins j (List.mem_filter.mp hj).1, fun d hd => ?_,
    one_le_clampLimit _ _ _, hs.ttl, h⟩
  · obtain ⟨m, hm⟩ := List.exists_mem_of_ne_nil _ hs.models
    have hmem : m ∈ (drafted s registry settings columns).models := Collection.mem_distinct.mpr hm
    rw [hempty] at hmem
    cases hmem
  · exact hrecords d ((withFreeAliases_free _ columns).2 d hd).1

theorem drafted_objection_eq_none_iff :
    (drafted s registry settings columns).objection = none ↔
      ∀ d ∈ pickedDimensions s registry, d.bucket = none → ∀ m ∈ pickedMetrics s registry,
        d.outputAlias ≠ m.outputAlias := by
  rw [Config.objection_eq_none_iff]
  constructor
  · intro h d hd _ m hm
    exact drafted_aliases_nodup.mp h.aliases d hd m hm
  · intro h
    refine ⟨drafted_placed, drafted_aliases_nodup.mpr fun d hd m hm hsame => ?_, fun o => drafted_order⟩
    exact h d hd (unbucketed_of_shared hd hm hsame) m hm hsame

theorem isObject_toJson (e : Expr) : ∃ ms, e.toJson = .obj ms := by
  cases e <;> exact ⟨_, rfl⟩

theorem written_faults_iff {fields : List DerivedField} :
    (∀ p ∈ written (chosenFields s fields), p.2.fault? = none) ↔
      ∀ f ∈ fields, s.Admits f → ∀ e, f.tree = some e → ∀ l ∈ e.literals, l.fault? = none := by
  constructor
  · intro h f hf hadmits e he
    rw [← Expr.fault?_eq_none_iff]
    exact h _ (mem_written.mpr ⟨f, hf, hadmits, he, rfl⟩)
  · rintro h ⟨g, e⟩ hp
    obtain ⟨f, hf, hadmits, he, -⟩ := mem_written.mp hp
    exact Expr.fault?_eq_none_iff.mpr (h f hf hadmits e he)

theorem trimmed_of_written {fields : List DerivedField}
    (hfields : ∀ f ∈ fields, ∀ e, f.tree = some e → e.Trimmed) :
    ∀ p ∈ written (chosenFields s fields), p.2.Trimmed := by
  rintro ⟨g, e⟩ hp
  obtain ⟨f, hf, -, he, -⟩ := mem_written.mp hp
  exact hfields f hf e he

theorem unknownModels_isEmpty_iff :
    (unknownModels s registry).isEmpty = true ↔ ∀ m ∈ s.models, registry.hasModel m = true := by
  rw [List.isEmpty_iff, unknownModels, List.filter_eq_nil_iff]
  simp [Collection.mem_distinct]

/-- An assembled configuration is the drafted one, and there is no objection to it. -/
theorem assemble_eq_ok {fields : List DerivedField} {a : Assembly}
    (h : assemble s fields registry settings = .ok a) :
    (∀ m ∈ s.models, registry.hasModel m = true) ∧ ∃ columns, derivedColumns (chosenFields s fields) = .ok columns ∧
      a.config = drafted s registry settings columns ∧ a.config.objection = none := by
  have hconfig := assemble_config s fields registry settings
  rw [h] at hconfig
  split at hconfig
  · rename_i hknown
    obtain ⟨columns, hcolumns, hchecked⟩ := bind_eq_ok.mp hconfig.symm
    obtain ⟨hobjection, hsame⟩ := checked_eq_ok.mp hchecked
    rw [hsame] at hobjection
    exact ⟨unknownModels_isEmpty_iff.mp hknown, columns, hcolumns, hsame.symm, hobjection⟩
  · cases hconfig

theorem models_of_selectedModels {models : List String} (h : selectedModels s registry = .ok models) :
    Collection.distinct s.models = models := by
  unfold selectedModels at h
  dsimp only at h
  split at h
  · exact Except.ok.inj h
  · cases h

/-- What the parts of an assembled selection warn of, in order. -/
theorem warnings_of_assemble {fields : List DerivedField} {a : Assembly}
    (h : assemble s fields registry settings = .ok a) :
    let models := Collection.distinct s.models
    let visual := repairVisual s.visual (availableColumns s registry)
    let taken := a.config.metrics.map (·.outputAlias) ++ a.config.dimensions.map (·.outputAlias)
    ∃ columns primary aliases metrics, derivedColumns (chosenFields s fields) = .ok columns ∧
      a.config.derivedFields = (withFreeAliases taken columns).1 ∧
      a.warnings = (comparisonSeries visual (availableColumns s registry) primary).2 ++
        (grouping visual (availableColumns s registry)).2 ++ unknownFilterWarnings models registry s.filters ++
        (Filter.reduce (s.filters.filter (isKnownFilter models registry))).warnings ++
        requestWarnings s.derivedFieldIds (chosenFields s fields) ++ (withFreeAliases taken columns).2 ++
        (keptOrder s aliases metrics).2 := by
  intro models visual taken
  obtain ⟨selected, hmodels, h⟩ := bind_eq_ok.mp h
  cases models_of_selectedModels hmodels
  obtain ⟨columns, hcolumns, h⟩ := bind_eq_ok.mp h
  obtain ⟨config, hchecked, h⟩ := bind_eq_ok.mp h
  obtain ⟨-, hconfig⟩ := checked_eq_ok.mp hchecked
  subst hconfig
  cases Except.ok.inj h
  exact ⟨columns, _, _, _, hcolumns, rfl, rfl⟩

/-- Assembling succeeds when the trees can be written and the dimension has an alias of its own. -/
theorem exists_assemble {fields : List DerivedField} (hknown : ∀ m ∈ s.models, registry.hasModel m = true)
    (hcolumns : derivedColumns (chosenFields s fields) = .ok columns)
    (hobjection : (drafted s registry settings columns).objection = none) :
    ∃ a, assemble s fields registry settings = .ok a ∧ a.config = drafted s registry settings columns := by
  have hconfig := assemble_config s fields registry settings
  rw [if_pos (unknownModels_isEmpty_iff.mpr hknown), hcolumns, Outcome.bind_ok,
    checked_eq_ok.mpr ⟨hobjection, rfl⟩] at hconfig
  cases hassemble : assemble s fields registry settings with
  | ok a =>
    rw [hassemble] at hconfig
    exact ⟨a, rfl, Except.ok.inj hconfig⟩
  | error failure =>
    rw [hassemble] at hconfig
    cases hconfig

/-- A failure to assemble known models comes from a tree that cannot be written, or from the one alias that
a dimension and a metric share. -/
theorem assemble_eq_error {fields : List DerivedField}
    (hfields : ∀ f ∈ fields, ∀ e, f.tree = some e → e.Trimmed)
    (hknown : ∀ m ∈ s.models, registry.hasModel m = true) {failure : Failure}
    (h : assemble s fields registry settings = .error failure) :
    (∃ f ∈ fields, s.Admits f ∧ ∃ e fault, f.tree = some e ∧ e.fault? = some fault ∧ failure = unwritable fault) ∨
      ∃ d ∈ pickedDimensions s registry, d.bucket = none ∧ ∃ m ∈ pickedMetrics s registry,
        d.outputAlias = m.outputAlias ∧ failure = .invalid ⟨"QueryConfig",
          [⟨[], .rejected ("Output aliases must be unique: " ++ d.outputAlias)⟩]⟩ := by
  have hconfig := assemble_config s fields registry settings
  rw [h, if_pos (unknownModels_isEmpty_iff.mpr hknown)] at hconfig
  cases hcolumns : derivedColumns (chosenFields s fields) with
  | error failure' =>
    rw [hcolumns] at hconfig
    cases hconfig
    obtain ⟨⟨g, e⟩, hp, fault, hfault, rfl⟩ := derivedColumns_eq_error (trimmed_of_written hfields) hcolumns
    obtain ⟨f, hf, hadmits, he, -⟩ := mem_written.mp hp
    exact .inl ⟨f, hf, hadmits, e, fault, he, hfault, rfl⟩
  | ok columns =>
    rw [hcolumns, Outcome.bind_ok] at hconfig
    have hobjection : (drafted s registry settings columns).objection ≠ none := by
      intro hnone
      rw [checked_eq_ok.mpr ⟨hnone, rfl⟩] at hconfig
      cases hconfig
    rw [Ne, drafted_objection_eq_none_iff] at hobjection
    push Not at hobjection
    obtain ⟨d, hd, hbucket, m, hm, hshared⟩ := hobjection
    refine .inr ⟨d, hd, hbucket, m, hm, hshared, ?_⟩
    have hrepeats : Config.hasRepeats (drafted s registry settings columns).outputAliases = true := by
      rw [← Bool.not_eq_false, Config.hasRepeats_eq_false_iff, drafted_aliases_nodup]
      exact fun happart => happart d hd m hm hshared
    rw [Config.checked, drafted_placed.objection_eq, if_pos hrepeats, drafted_repeated hd hm hshared] at hconfig
    exact Except.error.inj hconfig

/-- A selection with a model that the registry does not know is refused for it.  Any other selection, with
fields made of their expressions, is assembled into a well-formed configuration exactly when the numbers in
the trees of its fields can be written and its dimension, if not bucketed, does not bear the alias of a
metric; and these are the only failures. -/
theorem assemble_outcome {j : Json} {s : Selection} (hs : Selection.reader j = .valid s)
    {fields : List DerivedField} (hfields : ∀ f ∈ fields, f.Built) (registry : Schema.Registry)
    (settings : Settings) :
    ((∃ m ∈ s.models, registry.hasModel m = false) →
      assemble s fields registry settings = .error (.report (.query (.unknownModels
        ((Collection.distinct s.models).filter fun m => !registry.hasModel m))))) ∧
    ((∀ m ∈ s.models, registry.hasModel m = true) →
      ((∃ a, assemble s fields registry settings = .ok a ∧ a.config.WellFormed ∧ a.config.Fits) ↔
        (∀ f ∈ fields, s.Admits f → ∀ e, f.tree = some e → ∀ l ∈ e.literals, l.fault? = none) ∧
        ∀ d ∈ pickedDimensions s registry, d.bucket = none → ∀ m ∈ pickedMetrics s registry,
          d.outputAlias ≠ m.outputAlias) ∧
      ∀ failure, assemble s fields registry settings = .error failure →
        (∃ f ∈ fields, s.Admits f ∧ ∃ e fault, f.tree = some e ∧ e.fault? = some fault ∧
          failure = unwritable fault) ∨
        ∃ d ∈ pickedDimensions s registry, d.bucket = none ∧ ∃ m ∈ pickedMetrics s registry,
          d.outputAlias = m.outputAlias ∧ failure = .invalid ⟨"QueryConfig",
            [⟨[], .rejected ("Output aliases must be unique: " ++ d.outputAlias)⟩]⟩) := by
  have htrimmed : ∀ f ∈ fields, ∀ e, f.tree = some e → e.Trimmed := fun f hf e he => (hfields f hf).trimmed he
  refine ⟨fun hunknown => ?_, fun hknown => ⟨⟨?_, ?_⟩, fun failure => assemble_eq_error htrimmed hknown⟩⟩
  · have hsome : (unknownModels s registry).isEmpty ≠ true := by
      rw [Ne, unknownModels_isEmpty_iff]
      obtain ⟨m, hm, hmissing⟩ := hunknown
      intro hknown
      rw [hknown m hm] at hmissing
      cases hmissing
    have hconfig := assemble_config s fields registry settings
    rw [if_neg hsome] at hconfig
    cases hassemble : assemble s fields registry settings with
    | ok a =>
      rw [hassemble] at hconfig
      cases hconfig
    | error failure =>
      rw [hassemble] at hconfig
      exact congrArg Except.error (Except.error.inj hconfig)
  · rintro ⟨a, hassemble, -, -⟩
    obtain ⟨-, columns, hcolumns, hconfig, hobjection⟩ := assemble_eq_ok hassemble
    rw [hconfig, drafted_objection_eq_none_iff] at hobjection
    exact ⟨written_faults_iff.mp (derivedColumns_eq_ok (trimmed_of_written htrimmed) hcolumns).2, hobjection⟩
  · rintro ⟨hliterals, halias⟩
    have hwritten := written_faults_iff.mpr hliterals
    obtain ⟨columns, hcolumns⟩ := derivedColumns_of_written (trimmed_of_written htrimmed) hwritten
    have hobjection := (@drafted_objection_eq_none_iff s registry settings columns).mpr halias
    obtain ⟨a, hassemble, hconfig⟩ := exists_assemble hknown hcolumns hobjection
    refine ⟨a, hassemble, ?_, ?_⟩
    · rw [hconfig]
      refine drafted_wellFormed (Selection.sound_of_reader hs) (fun d hd => ?_) hobjection
      obtain ⟨p, -, hof⟩ :=
        Outcome.exists_of_mem_right (derivedColumns_eq_ok (trimmed_of_written htrimmed) hcolumns).1 hd
      rw [hof.record_eq]
      exact isObject_toJson p.2
    · rw [hconfig]
      exact Config.objection_eq_none_iff.mp hobjection

/-- A registry of one model, of the table `t`, whose fields have these ids, types and columns. -/
def oneModel (model : String) (fields : List (String × FieldType × String)) : Schema.Registry :=
  ⟨[⟨model, model, "t", fields.map fun f => ⟨f.1, f.1, f.2.1, some f.2.2, true, false, ""⟩, [], ""⟩]⟩

/-- The selection of fields of one model, with nothing else. -/
def picking (model : String) (ids : List String) : Selection :=
  ⟨[model], [(model, ids)], [], [], Visual.empty, [], [], none, none, true, false, none, none⟩

/-- The record of this selection. -/
def pickingRecord (model : String) (ids : List String) : Json :=
  .obj [("models", .arr [.str model]), ("fields", .obj [(model, Json.ofTexts ids)])]

/-- A model with numbers and texts. -/
def numbersAndTexts (numbers texts : String) : Schema.Registry :=
  oneModel "m" [(numbers, .number, numbers), (texts, .string, texts)]

/-- A field `m.x` beside the columns `x` and `y`: all of them are put out. -/
theorem assemble_outcome_beside :
    ∃ f : DerivedField, f.Built ∧ f.expression = "m.x" ∧
      ∃ a, assemble (picking "m" ["x", "y"]) [f] (numbersAndTexts "x" "y") Settings.standard = .ok a ∧
        a.config.WellFormed ∧ a.config.Fits := by
  have hscan : Token.scan "m.x" = .ok [⟨.reference, ['m', '.', 'x'], 0⟩, ⟨.ending, [], 3⟩] := rfl
  have hparse : Expr.parse (some "m.x") = .ok (.column (Token.fieldRef ⟨.reference, ['m', '.', 'x'], 0⟩)) :=
    (Expr.parse_eq_ok_iff hscan).mpr (.term (.factor (.primary (.reference rfl))))
  obtain ⟨f, hf⟩ : ∃ f, DerivedField.ofExpression "d" "d" "m.x" = .ok f := by
    rw [DerivedField.ofExpression, hparse]
    exact ⟨_, rfl⟩
  have hfields : f.tree = some (.column (Token.fieldRef ⟨.reference, ['m', '.', 'x'], 0⟩)) ∧ f.id = "d" ∧
      f.name = "d" ∧ f.expression = "m.x" := by
    rw [DerivedField.ofExpression, hparse] at hf
    cases hf
    exact ⟨rfl, rfl, rfl, rfl⟩
  obtain ⟨htree, hid, hname, hexpression⟩ := hfields
  have hbuilt : f.Built := ⟨f, by rw [hid, hname, hexpression]; exact hf, rfl, rfl, rfl, rfl⟩
  have hread : Selection.reader (pickingRecord "m" ["x", "y"]) = .valid (picking "m" ["x", "y"]) := rfl
  have hmodels : ∀ m ∈ (picking "m" ["x", "y"]).models, (numbersAndTexts "x" "y").hasModel m = true := by
    decide +kernel
  have hapart : ∀ d ∈ pickedDimensions (picking "m" ["x", "y"]) (numbersAndTexts "x" "y"), d.bucket = none →
      ∀ m ∈ pickedMetrics (picking "m" ["x", "y"]) (numbersAndTexts "x" "y"), d.outputAlias ≠ m.outputAlias := by
    decide +kernel
  have hliterals : ∀ g ∈ [f], (picking "m" ["x", "y"]).Admits g → ∀ e, g.tree = some e → ∀ l ∈ e.literals,
      l.fault? = none := by
    rw [List.forall_mem_singleton]
    intro _ e he
    cases htree.symm.trans he
    exact List.forall_mem_nil _
  obtain ⟨-, hassembled⟩ := assemble_outcome hread (List.forall_mem_singleton.mpr hbuilt) (numbersAndTexts "x" "y")
    Settings.standard
  exact ⟨f, hbuilt, hexpression, (hassembled hmodels).1.mpr ⟨hliterals, hapart⟩⟩

/-- The texts `x_sum` beside the numbers `x`: the dimension bears the alias of the metric, and the selection
is refused. -/
theorem shared_alias_refused :
    Selection.reader (pickingRecord "m" ["x", "x_sum"]) = .valid (picking "m" ["x", "x_sum"]) ∧
      (∀ m ∈ (picking "m" ["x", "x_sum"]).models, (numbersAndTexts "x" "x_sum").hasModel m = true) ∧
      1 ≤ Settings.standard.maxRowLimit ∧
      assemble (picking "m" ["x", "x_sum"]) [] (numbersAndTexts "x" "x_sum") Settings.standard =
        .error (.invalid ⟨"QueryConfig", [⟨[], .rejected "Output aliases must be unique: m__x_sum"⟩]⟩) := by
  refine ⟨rfl, ?_, ?_, rfl⟩
  · decide +kernel
  · decide

end Query

end AdhocReport
