import AdhocReport.Proofs.Query.Picking
set_option autoImplicit false

/-!
# Queries: repaired visuals

A visual is pointed back at the columns that are there.  Its metric and its dimension are always set while there is a
column of their kind; its comparison is set only if it was.  What was valid stays, so that repairing again finds
nothing to do, and the visual itself is handed back exactly when nothing has to be set anew.
-/

namespace AdhocReport.Query

/-- A column of the kind, numeric or not, bears the alias. -/
def Bears (columns : List ColumnOption) (numeric : Bool) (a : String) : Prop :=
  ∃ c ∈ columns, c.type.isNumeric = numeric ∧ c.outputAlias = a

theorem mem_numericAliases {columns : List ColumnOption} {a : String} :
    a ∈ numericAliases columns ↔ Bears columns true a := by
  simp only [numericAliases, Bears, List.mem_map, List.mem_filter, and_assoc]

theorem mem_textualAliases {columns : List ColumnOption} {a : String} :
    a ∈ textualAliases columns ↔ Bears columns false a := by
  simp only [textualAliases, Bears, List.mem_map, List.mem_filter, and_assoc, Bool.not_eq_true']

/-! ## One pick -/

section

variable {candidates : List String} {pick metric : Option String} {a : String}

theorem keepOrFirst_of_mem (h : a ∈ candidates) : keepOrFirst (some a) candidates = some a :=
  if_pos (List.contains_iff_mem.mpr h)

theorem keepOrFirst_eq_none_iff : keepOrFirst pick candidates = none ↔ candidates = [] := by
  constructor
  · intro h
    unfold keepOrFirst at h
    split at h
    · split at h
      · cases h
      · exact List.head?_eq_none_iff.mp h
    · exact List.head?_eq_none_iff.mp h
  · rintro rfl
    cases pick <;> rfl

/-- A pick that is settled stays. -/
theorem keepOrFirst_keepOrFirst :
    keepOrFirst (keepOrFirst pick candidates) candidates = keepOrFirst pick candidates := by
  cases h : keepOrFirst pick candidates with
  | none => rw [keepOrFirst_eq_none_iff.mp h]; rfl
  | some a => exact keepOrFirst_of_mem (mem_of_keepOrFirst h)

theorem repairedComparison_of_mem (h : a ∈ candidates) : repairedComparison (some a) metric candidates = some a :=
  if_pos (List.contains_iff_mem.mpr h)

theorem repairedComparison_of_notMem (h : a ∉ candidates) :
    repairedComparison (some a) metric candidates = (candidates.filter fun other => metric != some other).head? :=
  if_neg fun hmem => h (List.contains_iff_mem.mp hmem)

theorem repairedComparison_repairedComparison :
    repairedComparison (repairedComparison pick metric candidates) metric candidates =
      repairedComparison pick metric candidates := by
  cases h : repairedComparison pick metric candidates with
  | none => rfl
  | some a => exact repairedComparison_of_mem (mem_of_repairedComparison h)

end

/-- What becomes of a pick among the columns of a kind: it is the alias of one of them, it is missing only if there is
none, and it is what it was if that was valid. -/
structure Settles (columns : List ColumnOption) (numeric : Bool) (before after : Option String) : Prop where
  bears : ∀ a, after = some a → Bears columns numeric a
  none_iff : after = none ↔ ∀ c ∈ columns, c.type.isNumeric ≠ numeric
  kept : ∀ a, before = some a → Bears columns numeric a → after = some a

theorem settles_keepOrFirst {columns : List ColumnOption} {numeric : Bool} {aliases : List String}
    (haliases : ∀ a, a ∈ aliases ↔ Bears columns numeric a) (before : Option String) :
    Settles columns numeric before (keepOrFirst before aliases) where
  bears a ha := (haliases a).mp (mem_of_keepOrFirst ha)
  none_iff := by
    rw [keepOrFirst_eq_none_iff, List.eq_nil_iff_forall_not_mem]
    constructor
    · intro hnone c hc hkind
      exact hnone c.outputAlias ((haliases _).mpr ⟨c, hc, hkind, rfl⟩)
    · intro hother a ha
      obtain ⟨c, hc, hkind, -⟩ := (haliases a).mp ha
      exact hother c hc hkind
  kept := by
    rintro a rfl ha
    exact keepOrFirst_of_mem ((haliases a).mpr ha)

/-- What becomes of a comparison: it is the alias of a numeric column or missing, and it is missing if it was.  A valid
one stays; any other is replaced by an alias that the metric does not have, and cleared only if there is none. -/
structure SettlesComparison (columns : List ColumnOption) (metric before after : Option String) : Prop where
  bears : ∀ a, after = some a → Bears columns true a
  missing : before = none → after = none
  kept : ∀ a, before = some a → Bears columns true a → after = some a
  replaced : after ≠ before → ∀ a, after = some a → metric ≠ some a
  cleared : before ≠ none → after = none → ∀ a, Bears columns true a → metric = some a

theorem settles_repairedComparison (columns : List ColumnOption) (metric before : Option String) :
    SettlesComparison columns metric before (repairedComparison before metric (numericAliases columns)) where
  bears a ha := mem_numericAliases.mp (mem_of_repairedComparison ha)
  missing := by
    rintro rfl
    rfl
  kept := by
    rintro a rfl ha
    exact repairedComparison_of_mem (mem_numericAliases.mpr ha)
  replaced := by
    intro hchanged a ha
    cases before with
    | none => cases ha
    | some b =>
      have hinvalid : b ∉ numericAliases columns := fun hb => hchanged (repairedComparison_of_mem hb)
      rw [repairedComparison_of_notMem hinvalid] at ha
      simpa using (List.mem_filter.mp (List.mem_of_head? ha)).2
  cleared := by
    intro hset hcleared a ha
    obtain ⟨b, rfl⟩ := Option.ne_none_iff_exists'.mp hset
    have hinvalid : b ∉ numericAliases columns := by
      intro hb
      rw [repairedComparison_of_mem hb] at hcleared
      cases hcleared
    rw [repairedComparison_of_notMem hinvalid, List.head?_eq_none_iff, List.filter_eq_nil_iff] at hcleared
    simpa using hcleared a (mem_numericAliases.mpr ha)

/-! ## The visual -/

/-- A repair touches nothing but the picks. -/
theorem repairVisual_framed (v : Visual) (columns : List ColumnOption) :
    repairVisual v columns = { v with
      metric := (repairVisual v columns).metric
      dimension := (repairVisual v columns).dimension
      comparison := (repairVisual v columns).comparison } := by
  rw [comparison_repairVisual, metric_repairVisual, dimension_repairVisual]
  exact repairVisual_eq v columns

/-- The visual itself is handed back when its picks come out as they are. -/
theorem repairedCopy?_eq_none_iff {v : Visual} {columns : List ColumnOption} :
    repairedCopy? v columns = none ↔ (repairVisual v columns).metric = v.metric ∧
      (repairVisual v columns).dimension = v.dimension ∧ (repairVisual v columns).comparison = v.comparison := by
  rw [comparison_repairVisual, metric_repairVisual, dimension_repairVisual]
  unfold repairedCopy?
  dsimp only
  rw [ite_eq_left_iff]
  simp only [pickUpdate, PickUpdate.isEmpty, reduceCtorEq, imp_false, not_not, Bool.and_eq_true, isNone_setAnew,
    and_assoc]

/-- Repairing settles the metric among the numeric columns, the dimension among the others, and the comparison
together with the metric that comes out; it touches nothing else.  The visual itself is handed back exactly when no
pick comes out as another one, which is to say when nothing has changed; and a repaired visual is handed back itself
when it is repaired again with the same columns. -/
theorem repaired_settles (v : Visual) (columns : List ColumnOption) :
    let w := repairVisual v columns
    Settles columns true v.metric w.metric ∧ Settles columns false v.dimension w.dimension ∧
    SettlesComparison columns w.metric v.comparison w.comparison ∧
    w = { v with metric := w.metric, dimension := w.dimension, comparison := w.comparison } ∧
    (repairedCopy? v columns = none ↔ w = v) ∧ repairedCopy? w columns = none ∧ repairVisual w columns = w := by
  intro w
  have hw : w = { v with metric := w.metric, dimension := w.dimension, comparison := w.comparison } :=
    repairVisual_framed v columns
  have hagain : repairedCopy? w columns = none := by
    have hmetric : (repairVisual w columns).metric = w.metric := by
      rw [metric_repairVisual, metric_repairVisual, keepOrFirst_keepOrFirst]
    refine repairedCopy?_eq_none_iff.mpr ⟨hmetric, ?_, ?_⟩
    · rw [dimension_repairVisual, dimension_repairVisual, keepOrFirst_keepOrFirst]
    · rw [comparison_repairVisual, hmetric, comparison_repairVisual, repairedComparison_repairedComparison]
  refine ⟨?_, ?_, ?_, hw, ?_, hagain, ?_⟩
  · rw [metric_repairVisual]
    exact settles_keepOrFirst (fun a => mem_numericAliases) v.metric
  · rw [dimension_repairVisual]
    exact settles_keepOrFirst (fun a => mem_textualAliases) v.dimension
  · rw [comparison_repairVisual]
    exact settles_repairedComparison columns w.metric v.comparison
  · rw [repairedCopy?_eq_none_iff]
    constructor
    · rintro ⟨hmetric, hdimension, hcomparison⟩
      rw [hw, hmetric, hdimension, hcomparison]
    · intro hsame
      exact ⟨congrArg Visual.metric hsame, congrArg Visual.dimension hsame, congrArg Visual.comparison hsame⟩
  · change (repairedCopy? w columns).getD w = w
    rw [hagain]
    rfl

end AdhocReport.Query
