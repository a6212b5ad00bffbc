import AdhocReport.Proofs.Query.Record
import AdhocReport.Query.Execution
set_option autoImplicit false

/-!
# Configurations with one canonical text

The canonical text of a configuration tells all of it but the order of the members in the records of
its trees and the numbers in them that are not finite, and these say nothing: the trees are the same.  So
configurations with one canonical text are the same query, and a configuration is the same query as what
is read back from its record.
-/

namespace AdhocReport

/-! ## Parts -/

theorem FieldRef.eq_of_sortKeys {r r' : FieldRef} (h : r.toJson.sortKeys = r'.toJson.sortKeys) : r = r' := by
  have hmembers := Json.members_of_sortKeys h rfl (by simp)
  simp only [Json.sortKeysMembers, Json.sortKeys, List.cons.injEq, Prod.mk.injEq, Json.str.injEq,
    true_and, and_true] at hmembers
  obtain ⟨hmodel, hfield⟩ := hmembers
  cases r
  cases r'
  cases hmodel
  cases hfield
  rfl

theorem Join.Kind.code_injective {k k' : Join.Kind} (h : k.code = k'.code) : k = k' := by
  cases k <;> cases k' <;> first | rfl | exact absurd h (by decide)

theorem Join.Condition.eq_of_sortKeys {c c' : Join.Condition}
    (h : c.toJson.sortKeys = c'.toJson.sortKeys) : c = c' := by
  have hmembers := Json.members_of_sortKeys h rfl (by simp)
  simp only [Json.sortKeysMembers, Json.sortKeys, List.cons.injEq, Prod.mk.injEq, Json.str.injEq,
    true_and, and_true] at hmembers
  obtain ⟨hid, hleftModel, hleftField, hrightModel, hrightField, hkind, hdescription⟩ := hmembers
  have hid := Json.ofText?_of_sortKeys hid
  have hkind := Join.Kind.code_injective hkind
  have hdescription := Json.ofText?_of_sortKeys hdescription
  obtain ⟨_, ⟨_, _⟩, ⟨_, _⟩, _, _⟩ := c
  obtain ⟨_, ⟨_, _⟩, ⟨_, _⟩, _, _⟩ := c'
  simp only at hid hleftModel hleftField hrightModel hrightField hkind hdescription
  rw [hid, hleftModel, hleftField, hrightModel, hrightField, hkind, hdescription]

theorem Filter.Comparator.code_injective {k k' : Filter.Comparator} (h : k.code = k'.code) : k = k' := by
  cases k <;> cases k' <;> first | rfl | exact absurd h (by decide)

theorem Literal.eq_of_sortKeys {l l' : Literal} (h : l.toJson.sortKeys = l'.toJson.sortKeys) : l = l' := by
  cases l <;> cases l' <;> cases h <;> rfl

theorem Filter.Comparison.eq_of_sortKeys {c c' : Filter.Comparison}
    (h : c.toJson.sortKeys = c'.toJson.sortKeys) : c = c' := by
  have hmembers := Json.members_of_sortKeys h rfl (by simp)
  simp only [Json.sortKeysMembers, List.cons.injEq, Prod.mk.injEq, true_and, and_true] at hmembers
  obtain ⟨hleft, hcomparator, hvalue⟩ := hmembers
  have hleft := FieldRef.eq_of_sortKeys hleft
  have hcomparator := Filter.Comparator.code_injective (Json.str.inj hcomparator)
  have hvalue := Literal.eq_of_sortKeys hvalue
  obtain ⟨_, _, _⟩ := c
  obtain ⟨_, _, _⟩ := c'
  simp only at hleft hcomparator hvalue
  rw [hleft, hcomparator, hvalue]

namespace Query

theorem Aggregation.code_injective {a a' : Aggregation} (h : a.code = a'.code) : a = a' := by
  cases a <;> cases a' <;> first | rfl | exact absurd h (by decide)

theorem TimeBucket.code_injective {b b' : TimeBucket} (h : b.code = b'.code) : b = b' := by
  cases b <;> cases b' <;> first | rfl | exact absurd h (by decide)

theorem Direction.code_injective {d d' : Direction} (h : d.code = d'.code) : d = d' := by
  cases d <;> cases d' <;> first | rfl | exact absurd h (by decide)

theorem Metric.eq_of_sortKeys {m m' : Metric} (h : m.toJson.sortKeys = m'.toJson.sortKeys) : m = m' := by
  have hmembers := Json.members_of_sortKeys h rfl (by simp)
  simp only [Json.sortKeysMembers, Json.sortKeys, List.cons.injEq, Prod.mk.injEq, Json.str.injEq,
    true_and, and_true] at hmembers
  obtain ⟨hmodel, hfield, haggregation, houtputAlias⟩ := hmembers
  have haggregation := Aggregation.code_injective haggregation
  obtain ⟨⟨_, _⟩, _, _⟩ := m
  obtain ⟨⟨_, _⟩, _, _⟩ := m'
  simp only at hmodel hfield haggregation houtputAlias
  rw [hmodel, hfield, haggregation, houtputAlias]

theorem Dimension.eq_of_sortKeys {d d' : Dimension} (h : d.toJson.sortKeys = d'.toJson.sortKeys) :
    d = d' := by
  have hmembers := Json.members_of_sortKeys h rfl (by simp)
  simp only [Json.sortKeysMembers, Json.sortKeys, List.cons.injEq, Prod.mk.injEq, Json.str.injEq,
    true_and, and_true] at hmembers
  obtain ⟨hmodel, hfield, hbucket, houtputAlias⟩ := hmembers
  have hbucket := Option.map_injective (fun _ _ hsame => TimeBucket.code_injective hsame)
    (Json.ofText?_of_sortKeys hbucket)
  obtain ⟨⟨_, _⟩, _, _⟩ := d
  obtain ⟨⟨_, _⟩, _, _⟩ := d'
  simp only at hmodel hfield hbucket houtputAlias
  rw [hmodel, hfield, hbucket, houtputAlias]

theorem OrderBy.eq_of_sortKeys {o o' : OrderBy} (h : o.toJson.sortKeys = o'.toJson.sortKeys) : o = o' := by
  have hmembers := Json.members_of_sortKeys h rfl (by simp)
  simp only [Json.sortKeysMembers, Json.sortKeys, List.cons.injEq, Prod.mk.injEq, Json.str.injEq,
    true_and, and_true] at hmembers
  obtain ⟨houtputAlias, hdirection⟩ := hmembers
  have hdirection := Direction.code_injective hdirection
  obtain ⟨_, _⟩ := o
  obtain ⟨_, _⟩ := o'
  simp only at houtputAlias hdirection
  rw [houtputAlias, hdirection]

theorem intToJson_of_sortKeys {n n' : Option ℤ} (h : (intToJson n).sortKeys = (intToJson n').sortKeys) :
    n = n' := by
  cases n <;> cases n' <;> cases h <;> rfl

theorem Options.eq_of_sortKeys {o o' : Options} (h : o.toJson.sortKeys = o'.toJson.sortKeys) : o = o' := by
  have hmembers := Json.members_of_sortKeys h rfl (by simp)
  simp only [Json.sortKeysMembers, Json.sortKeys, List.cons.injEq, Prod.mk.injEq, Json.bool.injEq,
    true_and, and_true] at hmembers
  obtain ⟨hallowAsync, hforceAsync, htemplateId, httl⟩ := hmembers
  have htemplateId := Json.ofText?_of_sortKeys htemplateId
  have httl := intToJson_of_sortKeys httl
  obtain ⟨_, _, _, _⟩ := o
  obtain ⟨_, _, _, _⟩ := o'
  simp only at hallowAsync hforceAsync htemplateId httl
  rw [hallowAsync, hforceAsync, htemplateId, httl]

theorem pairsToJson_of_sortKeys {ps ps' : List (String × String)}
    (h : (DerivedField.pairsToJson ps).sortKeys = (DerivedField.pairsToJson ps').sortKeys) : ps = ps' := by
  refine @Json.eq_of_sortKeys (String × String) (fun p => Json.ofTexts [p.1, p.2]) ?_ ps ps' h
  intro p q hsame
  have htexts := Json.ofTexts_of_sortKeys hsame
  simp only [List.cons.injEq, and_true] at htexts
  exact Prod.ext htexts.1 htexts.2

/-! ## Derived columns -/

/-- The columns are the same, but the records of their trees may list their members differently, and
differ where a number is not finite. -/
structure DerivedColumn.Alike (d d' : DerivedColumn) : Prop where
  id : d.id = d'.id
  outputAlias : d.outputAlias = d'.outputAlias
  kind : d.kind = d'.kind
  record : d.record.finite.sortKeys = d'.record.finite.sortKeys
  tree : d.tree = d'.tree
  referencedModels : d.referencedModels = d'.referencedModels
  joinDependencies : d.joinDependencies = d'.joinDependencies
  modelGraphSignature : d.modelGraphSignature = d'.modelGraphSignature
  compiledSqlHash : d.compiledSqlHash = d'.compiledSqlHash

theorem kind_code_injective {k k' : DerivedField.Kind} (h : k.code = k'.code) : k = k' := by
  cases k <;> cases k' <;> first | rfl | exact absurd h (by decide)

theorem DerivedColumn.alike_of_sortKeys {d d' : DerivedColumn}
    (h : d.toJson.sortKeys = d'.toJson.sortKeys) : d.Alike d' := by
  have hmembers := Json.members_of_sortKeys h rfl (by simp)
  simp only [Json.sortKeysMembers, List.cons.injEq, Prod.mk.injEq, true_and, and_true] at hmembers
  obtain ⟨hid, houtputAlias, hkind, hrecord, hreferencedModels, hjoinDependencies, hsignature, hhash⟩ := hmembers
  exact ⟨Json.str.inj hid, Json.str.inj houtputAlias, kind_code_injective (Json.str.inj hkind), hrecord,
    Expr.eq_of_sortKeys (Expr.ofJson_finite d.record_tree) (Expr.ofJson_finite d'.record_tree) hrecord,
    Json.ofTexts_of_sortKeys hreferencedModels,
    pairsToJson_of_sortKeys hjoinDependencies, Json.ofText?_of_sortKeys hsignature,
    Json.ofText?_of_sortKeys hhash⟩

theorem DerivedColumn.finite_alike (d : DerivedColumn) : d.finite.Alike d :=
  ⟨rfl, rfl, rfl, congrArg Json.sortKeys (Json.finite_finite d.record), rfl, rfl, rfl, rfl, rfl⟩

/-! ## Configurations -/

/-- The configurations are the same, but the records in their derived columns may list their members
differently, and differ where a number is not finite. -/
structure Config.Alike (c c' : Config) : Prop where
  models : c.models = c'.models
  joins : c.joins = c'.joins
  filters : c.filters = c'.filters
  metrics : c.metrics = c'.metrics
  dimensions : c.dimensions = c'.dimensions
  derivedFields : List.Forall₂ DerivedColumn.Alike c.derivedFields c'.derivedFields
  orderBy : c.orderBy = c'.orderBy
  limit : c.limit = c'.limit
  options : c.options = c'.options

/-- Configurations with one canonical text are alike. -/
theorem Config.alike_of_canonical {c c' : Config} (h : c.toJson.canonical = c'.toJson.canonical) :
    c.Alike c' := by
  have hmembers := Json.members_of_sortKeys (Json.canonical_eq_iff.mp h) rfl (by simp)
  simp only [Json.sortKeysMembers, List.cons.injEq, Prod.mk.injEq, true_and, and_true] at hmembers
  obtain ⟨hmodels, hjoins, hfilters, hmetrics, hdimensions, hderivedFields, horderBy, hlimit, hoptions⟩ := hmembers
  exact ⟨Json.ofTexts_of_sortKeys hmodels,
    Json.eq_of_sortKeys (fun _ _ => Join.Condition.eq_of_sortKeys) hjoins,
    Json.eq_of_sortKeys (fun _ _ => Filter.Comparison.eq_of_sortKeys) hfilters,
    Json.eq_of_sortKeys (fun _ _ => Metric.eq_of_sortKeys) hmetrics,
    Json.eq_of_sortKeys (fun _ _ => Dimension.eq_of_sortKeys) hdimensions,
    Json.forall₂_of_sortKeys (fun _ _ => DerivedColumn.alike_of_sortKeys) hderivedFields,
    Json.eq_of_sortKeys (fun _ _ => OrderBy.eq_of_sortKeys) horderBy, Json.int.inj hlimit,
    Options.eq_of_sortKeys hoptions⟩

/-- What is read back from the record of a configuration is like it. -/
theorem Config.finite_alike (c : Config) : c.finite.Alike c := by
  refine ⟨rfl, rfl, rfl, rfl, rfl, ?_, rfl, rfl, rfl⟩
  rw [Config.finite, List.forall₂_map_left_iff]
  exact List.forall₂_same.mpr fun d _ => d.finite_alike

/-! ## Execution -/

theorem staleIds_of_alike {models : List String} {ds ds' : List DerivedColumn}
    (h : List.Forall₂ DerivedColumn.Alike ds ds') : staleIds models ds = staleIds models ds' := by
  induction h with
  | nil => rfl
  | @cons d d' ds ds' hsame _ ih =>
    unfold staleIds at ih ⊢
    rw [List.filter_cons, List.filter_cons, hsame.referencedModels, hsame.tree]
    split
    · rw [List.map_cons, List.map_cons, hsame.id, ih]
    · exact ih

theorem ensureCurrent_of_alike {models : List String} {ds ds' : List DerivedColumn}
    (h : List.Forall₂ DerivedColumn.Alike ds ds') : ensureCurrent models ds = ensureCurrent models ds' := by
  rw [ensureCurrent, ensureCurrent, staleIds_of_alike h]

theorem Scope.derived_of_alike (s : Scope) (dialect : Sql.Dialect) (grouped : Bool) {d d' : DerivedColumn}
    (h : d.Alike d') : s.derived dialect grouped d = s.derived dialect grouped d' := by
  unfold Scope.derived
  rw [h.kind, h.tree, h.outputAlias]

theorem mapM_derived_of_alike (s : Scope) (dialect : Sql.Dialect) (grouped : Bool)
    {ds ds' : List DerivedColumn} (h : List.Forall₂ DerivedColumn.Alike ds ds') :
    ds.mapM (s.derived dialect grouped) = ds'.mapM (s.derived dialect grouped) := by
  induction h with
  | nil => rfl
  | cons hsame _ ih => rw [List.mapM_cons, List.mapM_cons, s.derived_of_alike dialect grouped hsame, ih]

namespace Config.Alike

variable {c c' : Config}

theorem analytics (h : c.Alike c') (t : Target) : t.analytics c = t.analytics c' := by
  simp only [Target.analytics, current, h.models, h.joins, h.filters, h.metrics, h.dimensions, h.orderBy,
    h.limit, ensureCurrent_of_alike h.derivedFields,
    fun s grouped => mapM_derived_of_alike s t.dialect grouped h.derivedFields]

/-- Alike configurations give the same result or the same failure. -/
theorem execute (h : c.Alike c') (t : Target) (content : Sql.Content) :
    t.execute content c = t.execute content c' := by
  rw [Target.execute, Target.execute, h.analytics t]

end Config.Alike

end Query

end AdhocReport
