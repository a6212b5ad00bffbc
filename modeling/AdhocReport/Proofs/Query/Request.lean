import AdhocReport.Proofs.DerivedField.Reconciliation
import AdhocReport.Proofs.Query.Assembly
set_option autoImplicit false

/-!
# Queries: derived fields that are asked for

A selection may ask for derived fields by their ids.  What stands in the way of a field is looked at three
times: where it is missing, where it has no column because it is stale, hidden or without a tree, and where
the alias of its column is taken.  The warnings of the first two are written apart from the conditions under
which columns are made; together the three leave no id out that is asked for.
-/

namespace AdhocReport.Query

variable {s : Selection} {registry : Schema.Registry} {settings : Settings} {fields : List DerivedField}

/-! ## The column of a field -/

/-- The derived column bears the id of the field, also as its alias, and carries the record of the tree. -/
structure DerivedColumn.Carries (d : DerivedColumn) (f : DerivedField) (tree : Expr) : Prop where
  id_eq : d.id = f.id
  outputAlias_eq : d.outputAlias = f.id
  record_eq : d.record = tree.toJson

theorem carries_of_derivedColumn {f : DerivedField} {tree : Expr} {d : DerivedColumn}
    (h : derivedColumn f tree = .ok d) : d.Carries f tree := by
  unfold derivedColumn at h
  cases hread : Expr.ofJson tree.toJson with
  | ok e =>
    rw [TreeRecord.ofJson_of_ok hread] at h
    cases h
    exact ⟨rfl, rfl, rfl⟩
  | error fault =>
    rw [TreeRecord.ofJson_of_error hread] at h
    cases hmalformed : fault.isMalformed <;> rw [hmalformed] at h <;> cases h

theorem derivedColumns_carry {columns : List DerivedColumn} (h : derivedColumns fields = .ok columns) :
    List.Forall₂ (fun p d => DerivedColumn.Carries d p.1 p.2) (written fields) columns :=
  (Outcome.mapM_eq_ok.mp h).imp fun _ _ => carries_of_derivedColumn

/-- A column that is not kept is warned of. -/
theorem kept_or_collides (taken : List String) {columns : List DerivedColumn} {d : DerivedColumn} (h : d ∈ columns) :
    d ∈ (withFreeAliases taken columns).1 ∨
      skippedField d.id "its alias collides with another column" ∈ (withFreeAliases taken columns).2 := by
  induction columns generalizing taken with
  | nil => cases h
  | cons e columns ih =>
    rw [withFreeAliases]
    split
    · rcases List.mem_cons.mp h with rfl | h
      · exact .inr List.mem_cons_self
      · exact (ih taken h).imp_right (List.mem_cons_of_mem _)
    · rcases List.mem_cons.mp h with rfl | h
      · exact .inl List.mem_cons_self
      · exact (ih (e.outputAlias :: taken) h).imp_left (List.mem_cons_of_mem _)

/-- An alias is lost only to another column that bears it. -/
theorem taken_or_kept (taken : List String) {columns : List DerivedColumn} {d : DerivedColumn} (h : d ∈ columns) :
    d.outputAlias ∈ taken ∨ ∃ e ∈ (withFreeAliases taken columns).1, e.outputAlias = d.outputAlias := by
  induction columns generalizing taken with
  | nil => cases h
  | cons e columns ih =>
    rw [withFreeAliases]
    split
    · rename_i htaken
      rcases List.mem_cons.mp h with rfl | h
      · exact .inl (List.contains_iff_mem.mp htaken)
      · exact ih taken h
    · rcases List.mem_cons.mp h with rfl | h
      · exact .inr ⟨d, List.mem_cons_self, rfl⟩
      · rcases ih (e.outputAlias :: taken) h with hmem | ⟨g, hg, hsame⟩
        · rcases List.mem_cons.mp hmem with hsame | hmem
          · exact .inr ⟨e, List.mem_cons_self, hsame.symm⟩
          · exact .inl hmem
        · exact .inr ⟨g, List.mem_cons_of_mem e hg, hsame⟩

/-- A field with a column has one of its id put out, or its id is a taken alias and a warning says so. -/
theorem kept_or_taken (taken : List String) {columns : List DerivedColumn} (h : derivedColumns fields = .ok columns)
    {p : DerivedField × Expr} (hp : p ∈ written fields) :
    (∃ e ∈ (withFreeAliases taken columns).1, e.id = p.1.id) ∨
      (p.1.id ∈ taken ∧
        skippedField p.1.id "its alias collides with another column" ∈ (withFreeAliases taken columns).2) := by
  have hcarry := derivedColumns_carry h
  obtain ⟨d, hd, hcarries⟩ := Outcome.exists_of_mem_right hcarry.flip hp
  rw [← hcarries.id_eq]
  have hown : d.outputAlias = d.id := hcarries.outputAlias_eq.trans hcarries.id_eq.symm
  rcases taken_or_kept taken hd with htaken | ⟨e, he, hsame⟩
  · rcases kept_or_collides taken hd with hkept | hwarned
    · exact .inl ⟨d, hkept, rfl⟩
    · exact .inr ⟨hown ▸ htaken, hwarned⟩
  · -- the alias went to another column, which then is of the same id
    obtain ⟨q, -, hother⟩ := Outcome.exists_of_mem_right hcarry ((withFreeAliases_free taken columns).2 e he).1
    refine .inl ⟨e, he, ?_⟩
    calc e.id = e.outputAlias := hother.id_eq.trans hother.outputAlias_eq.symm
      _ = d.outputAlias := hsame
      _ = d.id := hown

/-! ## The warnings for requested fields -/

theorem warned_of_missing {wanted : List String} {id : String} (hid : id ∈ wanted) (h : ∀ f ∈ fields, f.id ≠ id) :
    skippedField id "it does not exist" ∈ requestWarnings wanted fields := by
  refine List.mem_append_left _ (List.mem_map.mpr ⟨id, List.mem_filter.mpr ⟨?_, ?_⟩, rfl⟩)
  · exact Collection.mem_sortedSet.mpr hid
  · simpa using h

theorem warned_of_skipped {wanted : List String} {f : DerivedField} (hf : f ∈ fields) (hid : f.id ∈ wanted)
    {reason : String} (h : skipReason f = some reason) : skippedField f.id reason ∈ requestWarnings wanted fields := by
  refine List.mem_append_right _ (List.mem_filterMap.mpr ⟨f, List.mem_filter.mpr ⟨hf, ?_⟩, ?_⟩)
  · exact List.contains_iff_mem.mpr hid
  · rw [h]
    rfl

/-- Why a selection leaves out a field that it asks for, and what the warning says of it; the aliases are
those of the metrics and the dimensions. -/
inductive Selection.Skips (s : Selection) (fields : List DerivedField) (aliases : List String) (id : String) :
    String → Prop
  | missing : (∀ f ∈ fields, f.id ≠ id) → Skips s fields aliases id "it does not exist"
  | stale {f : DerivedField} : f ∈ fields → f.id = id → f.Outside s.models → Skips s fields aliases id "it is stale"
  | hidden {f : DerivedField} : f ∈ fields → f.id = id → f.visible = false →
      Skips s fields aliases id "it is hidden"
  | unparsed {f : DerivedField} : f ∈ fields → f.id = id → f.tree = none →
      Skips s fields aliases id "its expression does not parse"
  | colliding : id ∈ aliases → Skips s fields aliases id "its alias collides with another column"

theorem admits_iff {f : DerivedField} :
    s.Admits f ↔ (s.derivedFieldIds = [] ∨ f.id ∈ s.derivedFieldIds) ∧ f.visible = true ∧ ¬ f.Outside s.models := by
  have hfresh : ¬ f.Outside s.models ↔ ∀ m ∈ f.effectiveModels, m ∈ s.models := by
    simp only [DerivedField.Outside, not_exists, not_and, not_not, DerivedField.mem_effectiveModels_iff]
  rw [hfresh]
  constructor
  · intro h
    exact ⟨h.wanted, h.visible, h.current⟩
  · intro h
    exact ⟨h.1, h.2.1, h.2.2⟩

/-- A field that is asked for has a column, or a warning says why it has none. -/
theorem written_or_warned {f : DerivedField} (hf : f ∈ fields) (hid : f.id ∈ s.derivedFieldIds)
    (aliases : List String) :
    (∃ p ∈ written (chosenFields s fields), p.1.id = f.id) ∨
      ∃ reason, s.Skips fields aliases f.id reason ∧
        skippedField f.id reason ∈ requestWarnings s.derivedFieldIds (chosenFields s fields) := by
  let g := f.reconciled (Collection.distinct s.models)
  have hg : g = { f with status := f.expectedStatus (Collection.distinct s.models) } := f.reconciled_eq _
  have hgid : g.id = f.id := by rw [hg]
  have hmem : g ∈ chosenFields s fields := List.mem_map_of_mem (mem_candidates.mpr ⟨hf, .inr hid⟩)
  have hstale : g.isStale = true ↔ f.Outside s.models := by
    simp only [g, DerivedField.isStale_reconciled, DerivedField.mem_effectiveModels_iff, Collection.mem_distinct,
      DerivedField.Outside]
  have hwarned {reason : String} (hreason : skipReason g = some reason) :
      skippedField f.id reason ∈ requestWarnings s.derivedFieldIds (chosenFields s fields) := by
    rw [← hgid]
    exact warned_of_skipped hmem (hgid ▸ hid) hreason
  by_cases houtside : f.Outside s.models
  · refine .inr ⟨_, .stale hf rfl houtside, hwarned ?_⟩
    rw [skipReason, if_pos (hstale.mpr houtside)]
  have hfresh : ¬ g.isStale = true := mt hstale.mp houtside
  cases hvisible : f.visible with
  | false =>
    refine .inr ⟨_, .hidden hf rfl hvisible, hwarned ?_⟩
    rw [skipReason, if_neg hfresh, hg]
    simp [hvisible]
  | true =>
    cases htree : f.tree with
    | none =>
      refine .inr ⟨_, .unparsed hf rfl htree, hwarned ?_⟩
      rw [skipReason, if_neg hfresh, hg]
      simp [hvisible, htree]
    | some tree =>
      exact .inl ⟨(g, tree), mem_written.mpr ⟨f, hf, admits_iff.mpr ⟨.inr hid, hvisible, houtside⟩, htree, rfl⟩, hgid⟩

/-! ## What becomes of a request -/

/-- An id that is asked for is that of a column that is kept, or a warning names it with the reason. -/
theorem requested_or_warned {columns : List DerivedColumn}
    (hcolumns : derivedColumns (chosenFields s fields) = .ok columns) (aliases : List String) {id : String}
    (hid : id ∈ s.derivedFieldIds) :
    (∃ d ∈ (withFreeAliases aliases columns).1, d.id = id) ∨
      ∃ reason, s.Skips fields aliases id reason ∧
        (skippedField id reason ∈ requestWarnings s.derivedFieldIds (chosenFields s fields) ∨
          skippedField id reason ∈ (withFreeAliases aliases columns).2) := by
  by_cases hmissing : ∀ f ∈ fields, f.id ≠ id
  · refine .inr ⟨_, .missing hmissing, .inl (warned_of_missing hid fun g hg => ?_)⟩
    obtain ⟨f, hf, rfl⟩ := List.mem_map.mp hg
    rw [DerivedField.reconciled_eq]
    exact hmissing f (mem_candidates.mp hf).1
  push Not at hmissing
  obtain ⟨f, hf, rfl⟩ := hmissing
  rcases written_or_warned hf hid aliases with ⟨p, hp, hpid⟩ | ⟨reason, hreason, hwarned⟩
  · rw [← hpid]
    rcases kept_or_taken aliases hcolumns hp with hkept | ⟨htaken, hwarned⟩
    · exact .inl hkept
    · exact .inr ⟨_, .colliding htaken, .inr hwarned⟩
  · exact .inr ⟨reason, hreason, .inl hwarned⟩

/-- A column is made of a field that the selection admits, and carries its tree. -/
theorem exists_admitted {columns : List DerivedColumn} (hcolumns : derivedColumns (chosenFields s fields) = .ok columns)
    {d : DerivedColumn} (hd : d ∈ columns) :
    ∃ f ∈ fields, s.Admits f ∧ ∃ tree, f.tree = some tree ∧ d.Carries f tree := by
  obtain ⟨⟨g, tree⟩, hp, hcarries⟩ := Outcome.exists_of_mem_right (derivedColumns_carry hcolumns) hd
  obtain ⟨f, hf, hadmits, htree, rfl⟩ := mem_written.mp hp
  refine ⟨f, hf, hadmits, tree, htree, ?_⟩
  rw [DerivedField.reconciled_eq] at hcarries
  exact ⟨hcarries.id_eq, hcarries.outputAlias_eq, hcarries.record_eq⟩

/-- No requested field disappears silently: each id that is asked for is the id of a column that is put out, or
a warning names it with the reason why there is none.  Columns are put out only of fields that are asked for, if
any are; each is of a visible field that depends on selected models only, and carries the record of its
tree. -/
theorem requested_fields_accounted {a : Assembly} (h : assemble s fields registry settings = .ok a) :
    let aliases := a.config.metrics.map (·.outputAlias) ++ a.config.dimensions.map (·.outputAlias)
    (∀ id ∈ s.derivedFieldIds, (∃ d ∈ a.config.derivedFields, d.id = id) ∨
      ∃ reason, s.Skips fields aliases id reason ∧ skippedField id reason ∈ a.warnings) ∧
    ∀ d ∈ a.config.derivedFields, (s.derivedFieldIds ≠ [] → d.id ∈ s.derivedFieldIds) ∧
      ∃ f ∈ fields, f.id = d.id ∧ f.visible = true ∧ ¬ f.Outside s.models ∧
        ∃ tree, f.tree = some tree ∧ d.record = tree.toJson := by
  intro aliases
  obtain ⟨columns, primary, ordered, metrics, hcolumns, hshipped, hwarnings⟩ := warnings_of_assemble h
  rw [hshipped]
  constructor
  · intro id hid
    refine (requested_or_warned hcolumns aliases hid).imp_right ?_
    rintro ⟨reason, hreason, hwarned⟩
    refine ⟨reason, hreason, ?_⟩
    simp only [hwarnings, List.mem_append]
    rcases hwarned with hrequest | hcollision
    · exact .inl (.inl (.inr hrequest))
    · exact .inl (.inr hcollision)
  · intro d hd
    have hcolumn : d ∈ columns := ((withFreeAliases_free aliases columns).2 d hd).1
    obtain ⟨f, hf, hadmits, tree, htree, hcarries⟩ := exists_admitted hcolumns hcolumn
    obtain ⟨hwanted, hvisible, hfresh⟩ := admits_iff.mp hadmits
    refine ⟨fun hsome => ?_, f, hf, hcarries.id_eq.symm, hvisible, hfresh, tree, htree, hcarries.record_eq⟩
    rw [hcarries.id_eq]
    exact hwanted.resolve_left hsome

/-- A field `m.x` with an id, on models. -/
def fieldOfX (id : String) (models : List String) : DerivedField :=
  { DerivedField.bare id id "m.x" with tree := some (.column ⟨"m", "x"⟩), referencedModels := models }

/-- Five fields: one can be put out, and the others are in the way of that each in its own manner. -/
def fiveFields : List DerivedField :=
  [fieldOfX "m__x_sum" ["m"], { fieldOfX "dark" ["m"] with visible := false }, fieldOfX "far" ["m", "n"],
    { fieldOfX "torn" ["m"] with tree := none }, fieldOfX "shown" ["m"]]

/-- The selection of `m.x` and `m.y` that asks for five fields and for one that is not there. -/
def asking : Selection :=
  { picking "m" ["x", "y"] with derivedFieldIds := ["far", "shown", "torn", "m__x_sum", "gone", "dark"] }

/-- What is warned of in it. -/
def askingWarnings : List String :=
  ["Derived field 'gone' was skipped: it does not exist.",
    "Derived field 'dark' was skipped: it is hidden.",
    "Derived field 'far' was skipped: it is stale.",
    "Derived field 'torn' was skipped: its expression does not parse.",
    "Derived field 'm__x_sum' was skipped: its alias collides with another column."]

/-- One of six requested fields is put out, and each of the others is named. -/
theorem requested_fields_accounted_asking :
    ∃ a, assemble asking fiveFields (numbersAndTexts "x" "y") Settings.standard = .ok a ∧
      a.warnings = askingWarnings ∧
      (∀ id ∈ asking.derivedFieldIds, id = "shown" ∨
        ∃ reason, asking.Skips fiveFields ["m__x_sum", "m__y"] id reason ∧ skippedField id reason ∈ askingWarnings) ∧
      ∀ d ∈ a.config.derivedFields, ∃ f ∈ fiveFields, f.id = d.id ∧ f.visible = true := by
  have hassembled : ∃ a, assemble asking fiveFields (numbersAndTexts "x" "y") Settings.standard = .ok a ∧
      a.config.metrics.map (·.outputAlias) ++ a.config.dimensions.map (·.outputAlias) = ["m__x_sum", "m__y"] ∧
      a.config.derivedFields.map (·.id) = ["shown"] ∧ a.warnings = askingWarnings := ⟨_, rfl, rfl, rfl, rfl⟩
  obtain ⟨a, ha, haliases, hids, hwarnings⟩ := hassembled
  obtain ⟨hrequested, hcolumns⟩ := requested_fields_accounted ha
  rw [haliases, hwarnings] at hrequested
  refine ⟨a, ha, hwarnings, fun id hid => (hrequested id hid).imp_left ?_, fun d hd => ?_⟩
  · intro hshown
    obtain ⟨d, hd, rfl⟩ := hshown
    have hmem : d.id ∈ a.config.derivedFields.map (·.id) := List.mem_map_of_mem hd
    rw [hids] at hmem
    exact List.mem_singleton.mp hmem
  · obtain ⟨-, f, hf, hid, hvisible, -⟩ := hcolumns d hd
    exact ⟨f, hf, hid, hvisible⟩

end AdhocReport.Query
