import AdhocReport.Query.Config
import AdhocReport.Proofs.Check.Valid
import AdhocReport.Proofs.Expression.Record
set_option autoImplicit false

/-!
# The record of a configuration

What the reader of configurations accepts is described without it: the selection is not empty, the
numbers are in range, joins connect two models, and the parts fit together.  A configuration that is
so described is read back from its own record, unchanged but for the records of its trees, which have
lost the numbers that are not finite.
-/

namespace AdhocReport

/-! ## Parts -/

theorem Join.Condition.reader_toJson {c : Join.Condition} (h : c.left.model ≠ c.right.model) :
    Join.Condition.reader c.toJson = .valid c := by
  obtain ⟨id, left, right, kind, description⟩ := c
  refine Check.Checked.refusing_eq_valid.mpr ⟨?_, ?_⟩
  · cases id <;> cases kind <;> cases description <;> rfl
  · simpa using h

theorem Join.Condition.models_ne_of_reader {c : Join.Condition} {j : Json}
    (h : Join.Condition.reader j = .valid c) : c.left.model ≠ c.right.model := by
  have hfine := (Check.Checked.refusing_eq_valid.mp h).2
  intro hsame
  simp [hsame] at hfine

theorem Filter.Comparison.reader_toJson (c : Filter.Comparison) :
    Filter.Comparison.reader c.toJson = .valid c := by
  obtain ⟨left, comparator, value⟩ := c
  cases comparator <;> cases value <;> rfl

namespace Query

theorem Metric.reader_toJson (m : Metric) : Metric.reader m.toJson = .valid m := by
  obtain ⟨ref, aggregation, outputAlias⟩ := m
  cases aggregation <;> rfl

theorem Dimension.reader_toJson (d : Dimension) : Dimension.reader d.toJson = .valid d := by
  obtain ⟨ref, bucket, outputAlias⟩ := d
  cases bucket with
  | none => rfl
  | some b => cases b <;> rfl

theorem OrderBy.reader_toJson (o : OrderBy) : OrderBy.reader o.toJson = .valid o := by
  obtain ⟨outputAlias, direction⟩ := o
  cases direction <;> rfl

theorem TreeRecord.ofJson_of_ok {j : Json} {tree : Expr} (h : Expr.ofJson j = .ok tree) :
    TreeRecord.ofJson j = .valid ⟨j, tree, h⟩ := by
  unfold TreeRecord.ofJson
  split
  · rename_i tree' h'
    cases h.symm.trans h'
    rfl
  · rename_i h'
    cases h.symm.trans h'

theorem TreeRecord.ofJson_of_error {j : Json} {fault : RecordFault} (h : Expr.ofJson j = .error fault) :
    TreeRecord.ofJson j = if fault.isMalformed then .fail (.rejected fault.message) else .stopped fault := by
  unfold TreeRecord.ofJson
  split
  · rename_i h'
    cases h.symm.trans h'
  · rename_i fault' h'
    cases h.symm.trans h'
    rfl

theorem TreeRecord.reader_eq_valid {j : Json} {r : TreeRecord} :
    TreeRecord.reader j = .valid r ↔ (∃ ms, j = .obj ms) ∧ r.record = j := by
  rw [TreeRecord.reader, Check.Checked.andThen_eq_valid]
  constructor
  · rintro ⟨ms, hisObject, hread⟩
    refine ⟨?_, ?_⟩
    · cases j with
      | obj ms => exact ⟨ms, rfl⟩
      | _ => cases hisObject
    · unfold TreeRecord.ofJson at hread
      split at hread
      · cases hread
        rfl
      · split at hread <;> cases hread
  · rintro ⟨⟨ms, rfl⟩, hsame⟩
    obtain ⟨record, tree, hdenotes⟩ := r
    cases hsame
    exact ⟨ms, rfl, TreeRecord.ofJson_of_ok hdenotes⟩

namespace DerivedColumn

/-- The column as it is dumped: the numbers in the record of its tree are finite. -/
def finite (d : DerivedColumn) : DerivedColumn :=
  { d with record := d.record.finite, record_tree := Expr.ofJson_finite d.record_tree }

/-- The column as it was handed in, with the record of its tree as it stands. -/
def given (d : DerivedColumn) : Json :=
  .obj [("id", .str d.id), ("alias", .str d.outputAlias), ("kind", .str d.kind.code),
    ("expression_ast", d.record), ("referenced_models", Json.ofTexts d.referencedModels),
    ("join_dependencies", DerivedField.pairsToJson d.joinDependencies),
    ("model_graph_signature", Json.ofText? d.modelGraphSignature),
    ("compiled_sql_hash", Json.ofText? d.compiledSqlHash)]

theorem finite_eq_self_iff {d : DerivedColumn} : d.finite = d ↔ d.record.IsFinite := by
  refine ⟨fun hsame => Json.finite_eq_self_iff.mp (congrArg DerivedColumn.record hsame), ?_⟩
  intro h
  obtain ⟨id, outputAlias, kind, record, tree, models, pairs, signature, hash, hrecordTree⟩ := d
  have hsame : record.finite = record := Json.IsFinite.finite_eq h
  simp only [finite, hsame]

theorem reader_given {d : DerivedColumn} {ms : Check.Members} (h : d.record = .obj ms) :
    DerivedColumn.reader d.given = .valid d := by
  obtain ⟨id, outputAlias, kind, record, tree, models, pairs, signature, hash, hrecordTree⟩ := d
  have htreeRead : TreeRecord.reader record = .valid ⟨record, tree, hrecordTree⟩ :=
    TreeRecord.reader_eq_valid.mpr ⟨⟨ms, h⟩, rfl⟩
  have hkindRead : Check.choice DerivedField.Kind.codes (.str kind.code) = .valid kind := by
    cases kind <;> rfl
  have hmodelsRead : Check.list Check.text (Json.ofTexts models) = .valid models :=
    Check.list_map fun m _ => rfl
  have hpairsRead : Check.list (Check.pair Check.text) (DerivedField.pairsToJson pairs) = .valid pairs :=
    Check.list_map fun p _ => rfl
  unfold reader given
  rw [Check.record_of_known (by simp [known])]
  rw [Check.required_of_lookup rfl htreeRead, Check.defaulted_of_lookup rfl hkindRead,
    Check.defaulted_of_lookup rfl hmodelsRead, Check.defaulted_of_lookup rfl hpairsRead,
    Check.defaulted_of_lookup rfl (Check.nullable_ofText? signature),
    Check.defaulted_of_lookup rfl (Check.nullable_ofText? hash)]
  rfl

theorem record_of_reader {d : DerivedColumn} {j : Json} (h : DerivedColumn.reader j = .valid d) :
    ∃ ms, d.record = .obj ms := by
  obtain ⟨ms, rfl, hbuilt⟩ := Check.record_eq_valid h
  simp only [Check.Checked.seq_eq_valid, Check.Checked.map_eq_valid] at hbuilt
  obtain ⟨_, _, ⟨_, _, ⟨_, _, ⟨_, _, ⟨_, r, ⟨_, _, ⟨_, _, ⟨_, _, rfl⟩, -, rfl⟩, -, rfl⟩, htreeRead, rfl⟩,
    -, rfl⟩, -, rfl⟩, -, rfl⟩, -, rfl⟩ := hbuilt
  obtain ⟨i, -, hread⟩ := Check.required_eq_valid htreeRead
  obtain ⟨hisObject, hsame⟩ := TreeRecord.reader_eq_valid.mp hread
  show ∃ ms, r.record = .obj ms
  rw [hsame]
  exact hisObject

end DerivedColumn

theorem intToJson_nullable {n : Option Int} (h : ∀ i, n = some i → 1 ≤ i) :
    Check.nullable (Check.integerFrom 1) (intToJson n) = .valid n := by
  refine Check.nullable_map_getD n fun i hsame => ⟨Json.noConfusion, ?_⟩
  simp [Check.integerFrom, Check.integer, Check.Checked.andThen, h i hsame]

theorem Options.reader_toJson {o : Options} (h : ∀ n, o.cacheTtlSeconds = some n → 1 ≤ n) :
    Options.reader o.toJson = .valid o := by
  obtain ⟨allowAsync, forceAsync, templateId, ttl⟩ := o
  unfold reader toJson
  rw [Check.record_of_known (by simp)]
  rw [Check.defaulted_of_lookup rfl (Check.nullable_ofText? templateId),
    Check.defaulted_of_lookup rfl (intToJson_nullable h)]
  rfl

theorem integerFrom_le {j : Json} {n least : Int} (h : Check.integerFrom least j = .valid n) :
    least ≤ n := by
  obtain ⟨m, -, hinRange⟩ := Check.Checked.andThen_eq_valid.mp h
  split at hinRange
  · cases hinRange
    assumption
  · cases hinRange

theorem Options.ttl_of_reader {o : Options} {j : Json} (h : Options.reader j = .valid o) :
    ∀ n, o.cacheTtlSeconds = some n → 1 ≤ n := by
  obtain ⟨ms, rfl, hbuilt⟩ := Check.record_eq_valid h
  simp only [Check.Checked.seq_eq_valid, Check.Checked.map_eq_valid] at hbuilt
  obtain ⟨_, ttl, ⟨_, _, ⟨_, _, ⟨_, _, rfl⟩, -, rfl⟩, -, rfl⟩, hread, rfl⟩ := hbuilt
  intro n (hsame : ttl = some n)
  rcases Check.defaulted_eq_valid hread with rfl | ⟨i, -, hread⟩
  · cases hsame
  · rw [hsame] at hread
    exact integerFrom_le (Check.nullable_eq_some hread)

/-! ## The whole -/

namespace Config

/-- The parts of a configuration are in range and fit together. -/
structure WellFormed (c : Config) : Prop where
  models : c.models ≠ []
  joins : ∀ j ∈ c.joins, j.left.model ≠ j.right.model
  records : ∀ d ∈ c.derivedFields, ∃ ms, d.record = .obj ms
  limit : 1 ≤ c.limit
  ttl : ∀ n, c.options.cacheTtlSeconds = some n → 1 ≤ n
  fits : c.objection = none

/-- The configuration as it is dumped: the numbers in the records of its trees are finite. -/
def finite (c : Config) : Config := { c with derivedFields := c.derivedFields.map DerivedColumn.finite }

/-- The configuration as it was handed in, with the records of its trees as they stand. -/
def given (c : Config) : Json :=
  .obj [("models", Json.ofTexts c.models), ("joins", .arr (c.joins.map Join.Condition.toJson)),
    ("filters", .arr (c.filters.map Filter.Comparison.toJson)),
    ("metrics", .arr (c.metrics.map Metric.toJson)),
    ("dimensions", .arr (c.dimensions.map Dimension.toJson)),
    ("derived_fields", .arr (c.derivedFields.map DerivedColumn.given)),
    ("order_by", .arr (c.orderBy.map OrderBy.toJson)), ("limit", .int c.limit),
    ("options", c.options.toJson)]

theorem given_finite (c : Config) : c.finite.given = c.toJson := by
  have hcolumns : (c.derivedFields.map DerivedColumn.finite).map DerivedColumn.given =
      c.derivedFields.map DerivedColumn.toJson := by
    rw [List.map_map]
    rfl
  simp only [given, finite, hcolumns]
  rfl

/-- A configuration is dumped as it is exactly when the numbers in the records of its trees are finite. -/
theorem finite_eq_self_iff {c : Config} : c.finite = c ↔ ∀ d ∈ c.derivedFields, d.record.IsFinite := by
  have hcolumns : c.derivedFields.map DerivedColumn.finite = c.derivedFields.map id ↔
      ∀ d ∈ c.derivedFields, d.record.IsFinite := by
    rw [List.map_inj_left]
    exact forall₂_congr fun d _ => DerivedColumn.finite_eq_self_iff
  rw [← hcolumns, List.map_id]
  refine ⟨fun hsame => congrArg Config.derivedFields hsame, fun hsame => ?_⟩
  simp only [finite, hsame]

theorem finite_finite (c : Config) : c.finite.finite = c.finite := by
  refine finite_eq_self_iff.mpr fun d hmember => ?_
  obtain ⟨d, -, rfl⟩ := List.mem_map.mp hmember
  exact Json.isFinite_finite d.record

theorem toJson_finite (c : Config) : c.finite.toJson = c.toJson := by
  rw [← given_finite, finite_finite, given_finite]

theorem hash_finite (c : Config) : c.finite.hash = c.hash := congrArg payloadHash c.toJson_finite

theorem WellFormed.finite {c : Config} (h : c.WellFormed) : c.finite.WellFormed := by
  refine ⟨h.models, h.joins, ?_, h.limit, h.ttl, ?_⟩
  · intro d hmember
    obtain ⟨d, hthere, rfl⟩ := List.mem_map.mp hmember
    obtain ⟨ms, hrecord⟩ := h.records d hthere
    exact ⟨Json.finiteMembers ms, congrArg Json.finite hrecord⟩
  · have haliases : c.finite.outputAliases = c.outputAliases := by
      simp only [outputAliases, Config.finite, List.map_map]
      rfl
    have hfits := h.fits
    unfold objection at hfits ⊢
    rw [haliases]
    exact hfits

/-- A well-formed configuration is read back from what was handed in. -/
theorem WellFormed.reader_given {c : Config} (h : c.WellFormed) : reader c.given = .valid c := by
  obtain ⟨models, joins, filters, metrics, dimensions, derivedFields, orderBy, limit, options⟩ := c
  refine Check.Checked.refusing_eq_valid.mpr ⟨?_, h.fits⟩
  have hmodelsRead : Check.nonEmptyList Check.text (Json.ofTexts models) = .valid models := by
    refine Check.Checked.andThen_eq_valid.mpr ⟨models, Check.list_map fun m _ => rfl, ?_⟩
    simp [h.models]
  have hjoinsRead : Check.list Join.Condition.reader (.arr (joins.map Join.Condition.toJson)) = .valid joins :=
    Check.list_map fun j hmember => Join.Condition.reader_toJson (h.joins j hmember)
  have hfiltersRead : Check.list Filter.Comparison.reader (.arr (filters.map Filter.Comparison.toJson)) =
      .valid filters :=
    Check.list_map fun f _ => f.reader_toJson
  have hmetricsRead : Check.list Metric.reader (.arr (metrics.map Metric.toJson)) = .valid metrics :=
    Check.list_map fun m _ => m.reader_toJson
  have hdimensionsRead : Check.list Dimension.reader (.arr (dimensions.map Dimension.toJson)) =
      .valid dimensions :=
    Check.list_map fun d _ => d.reader_toJson
  have hderivedRead : Check.list DerivedColumn.reader (.arr (derivedFields.map DerivedColumn.given)) =
      .valid derivedFields :=
    Check.list_map fun d hmember => (h.records d hmember).elim fun ms => DerivedColumn.reader_given
  have horderRead : Check.list OrderBy.reader (.arr (orderBy.map OrderBy.toJson)) = .valid orderBy :=
    Check.list_map fun o _ => o.reader_toJson
  have hlimitRead : Check.integerFrom 1 (.int limit) = .valid limit := by
    simp [Check.integerFrom, Check.integer, Check.Checked.andThen, h.limit]
  unfold given
  rw [Check.record_of_known (by simp [known])]
  rw [Check.required_of_lookup rfl hmodelsRead, Check.defaulted_of_lookup rfl hjoinsRead,
    Check.defaulted_of_lookup rfl hfiltersRead, Check.defaulted_of_lookup rfl hmetricsRead,
    Check.defaulted_of_lookup rfl hdimensionsRead, Check.defaulted_of_lookup rfl hderivedRead,
    Check.defaulted_of_lookup rfl horderRead, Check.defaulted_of_lookup rfl hlimitRead,
    Check.defaulted_of_lookup rfl (Options.reader_toJson h.ttl)]
  rfl

/-- A well-formed configuration is read back from its record, as it is dumped. -/
theorem WellFormed.reader_toJson {c : Config} (h : c.WellFormed) : reader c.toJson = .valid c.finite := by
  rw [← given_finite]
  exact h.finite.reader_given

/-- What was read is well formed. -/
theorem wellFormed_of_reader {c : Config} {j : Json} (h : reader j = .valid c) : c.WellFormed := by
  obtain ⟨hread, hfits⟩ := Check.Checked.refusing_eq_valid.mp h
  obtain ⟨ms, rfl, hbuilt⟩ := Check.record_eq_valid hread
  simp only [Check.Checked.seq_eq_valid, Check.Checked.map_eq_valid] at hbuilt
  obtain ⟨_, options, ⟨_, limit, ⟨_, _, ⟨_, derived, ⟨_, _, ⟨_, _, ⟨_, _, ⟨_, joins, ⟨models, hmodelsRead, rfl⟩,
    hjoinsRead, rfl⟩, -, rfl⟩, -, rfl⟩, -, rfl⟩, hderivedRead, rfl⟩, -, rfl⟩, hlimitRead, rfl⟩,
    hoptionsRead, rfl⟩ := hbuilt
  refine ⟨?_, ?_, ?_, ?_, ?_, hfits⟩
  · obtain ⟨i, -, hread⟩ := Check.required_eq_valid hmodelsRead
    exact Check.ne_nil_of_nonEmptyList hread
  · intro j hmember
    obtain ⟨_, -, i, -, hread⟩ := Check.mem_of_defaulted_list hjoinsRead j hmember
    exact Join.Condition.models_ne_of_reader hread
  · intro d hmember
    obtain ⟨_, -, i, -, hread⟩ := Check.mem_of_defaulted_list hderivedRead d hmember
    exact DerivedColumn.record_of_reader hread
  · rcases Check.defaulted_eq_valid hlimitRead with rfl | ⟨i, -, hread⟩
    · show (1 : Int) ≤ 100
      decide
    · exact integerFrom_le hread
  · rcases Check.defaulted_eq_valid hoptionsRead with rfl | ⟨i, -, hread⟩
    · intro n hsame
      cases hsame
    · exact Options.ttl_of_reader hread

/-- A record whose limit is out of range is not read. -/
theorem limit_of_reader_toJson {c c' : Config} (h : reader c.toJson = .valid c') : 1 ≤ c.limit := by
  obtain ⟨hread, -⟩ := Check.Checked.refusing_eq_valid.mp h
  obtain ⟨ms, hsame, hbuilt⟩ := Check.record_eq_valid hread
  cases hsame
  simp only [Check.Checked.seq_eq_valid, Check.Checked.map_eq_valid] at hbuilt
  obtain ⟨_, _, ⟨_, limit, -, hlimitRead, -⟩, -⟩ := hbuilt
  have hinRange : Check.integerFrom 1 (.int c.limit) = .valid limit := Check.Checked.under_eq_valid.mp hlimitRead
  simp only [Check.integerFrom, Check.integer, Check.Checked.andThen] at hinRange
  split at hinRange
  · assumption
  · cases hinRange

theorem WellFormed.withLimit {c : Config} {l : Int} (h : c.WellFormed) (hinRange : 1 ≤ l) :
    { c with limit := l }.WellFormed :=
  ⟨h.models, h.joins, h.records, hinRange, h.ttl, h.fits⟩

/-- What is read from the record of a well-formed configuration whose limit was replaced. -/
theorem WellFormed.reader_withLimit_iff {c c' : Config} {l : Int} (h : c.WellFormed) :
    reader ({ c with limit := l } : Config).toJson = .valid c' ↔
      1 ≤ l ∧ c' = ({ c with limit := l } : Config).finite := by
  constructor
  · intro hread
    have hinRange : 1 ≤ l := limit_of_reader_toJson hread
    rw [(h.withLimit hinRange).reader_toJson] at hread
    cases hread
    exact ⟨hinRange, rfl⟩
  · rintro ⟨hinRange, rfl⟩
    exact (h.withLimit hinRange).reader_toJson

/-- The well-formed configurations are those that can be read. -/
theorem wellFormed_iff_read {c : Config} : c.WellFormed ↔ ∃ j, reader j = .valid c :=
  ⟨fun h => ⟨c.given, h.reader_given⟩, fun ⟨_, h⟩ => wellFormed_of_reader h⟩

end Config

end Query

end AdhocReport
