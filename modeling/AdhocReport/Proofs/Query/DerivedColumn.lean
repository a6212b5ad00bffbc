import AdhocReport.Query.Assembly
import AdhocReport.Proofs.Expression.ReadBack
import AdhocReport.Proofs.Query.Record
set_option autoImplicit false

/-!
# Queries: derived columns

A selection puts out the fields that it admits: those it asks for that are visible and depend on selected
models only.  Each becomes a column that holds the record of its tree, so the tree has to be one whose record
is read back; a column whose alias is taken is left out.
-/

namespace AdhocReport

/-- The field is made of its expression: it holds the tree of the expression and what follows from it.  Its
kind, its status, and whether it is visible are free. -/
def DerivedField.Built (f : DerivedField) : Prop :=
  ∃ g, DerivedField.ofExpression f.id f.name f.expression = .ok g ∧ f.tree = g.tree ∧
    f.referencedModels = g.referencedModels ∧ f.referencedFields = g.referencedFields ∧
    f.joinDependencies = g.joinDependencies

theorem DerivedField.Built.trimmed {f : DerivedField} (h : f.Built) {e : Expr} (he : f.tree = some e) :
    e.Trimmed := by
  obtain ⟨g, hg, htree, -⟩ := h
  obtain ⟨tree, hparse, hok⟩ := Outcome.bind_eq_ok.mp hg
  cases hok
  cases he.symm.trans htree
  exact Expr.trimmed_of_parse hparse

namespace Query

/-- The fields that a selection asks for, with their status in it. -/
def chosenFields (s : Selection) (fields : List DerivedField) : List DerivedField :=
  DerivedField.reconcile (candidates fields s.derivedFieldIds) (Collection.distinct s.models)

variable {s : Selection}

/-- The failure to write a tree that holds a refused number. -/
def unwritable (fault : RecordFault) : Failure :=
  if fault.isMalformed then .invalid ⟨"DerivedFieldPayload", [⟨[.key "expression_ast"], .rejected fault.message⟩]⟩
  else .record fault

/-- The derived column is that of the field with the tree. -/
structure DerivedColumn.Of (d : DerivedColumn) (f : DerivedField) (tree : Expr) : Prop where
  id_eq : d.id = f.id
  outputAlias_eq : d.outputAlias = f.id
  kind_eq : d.kind = f.kind
  record_eq : d.record = tree.toJson
  tree_eq : d.tree = tree
  referencedModels_eq : d.referencedModels = f.referencedModels

theorem derivedColumn_of_written {f : DerivedField} {tree : Expr} (htrimmed : tree.Trimmed)
    (h : tree.fault? = none) : ∃ d, derivedColumn f tree = .ok d ∧ d.Of f tree := by
  have hread := (Expr.ofJson_toJson_eq_ok_iff htrimmed).mpr h
  refine ⟨⟨f.id, f.id, f.kind, tree.toJson, tree, f.referencedModels, f.joinDependencies, f.modelGraphSignature,
    f.compiledSqlHash, hread⟩, ?_, rfl, rfl, rfl, rfl, rfl, rfl⟩
  rw [derivedColumn, TreeRecord.ofJson_of_ok hread]
  rfl

theorem derivedColumn_of_fault {f : DerivedField} {tree : Expr} (htrimmed : tree.Trimmed) {fault : RecordFault}
    (h : tree.fault? = some fault) : derivedColumn f tree = .error (unwritable fault) := by
  have hread : Expr.ofJson tree.toJson = .error fault := by
    rw [Expr.ofJson_toJson htrimmed, Expr.unlessRefused, ← Expr.fault?, h]
  rw [derivedColumn, TreeRecord.ofJson_of_error hread, unwritable]
  cases fault.isMalformed <;> rfl

/-- The selection admits a field to its query: the field is asked for and visible, and every model that it
depends on is selected. -/
structure Selection.Admits (s : Selection) (f : DerivedField) : Prop where
  wanted : s.derivedFieldIds = [] ∨ f.id ∈ s.derivedFieldIds
  visible : f.visible = true
  current : ∀ m ∈ f.effectiveModels, m ∈ s.models

/-- The fields of which derived columns are made, with their trees. -/
def written (fields : List DerivedField) : List (DerivedField × Expr) :=
  fields.filterMap fun f => if f.visible && !f.isStale then f.tree.map fun tree => (f, tree) else none

theorem mem_candidates {s : Selection} {fields : List DerivedField} {f : DerivedField} :
    f ∈ candidates fields s.derivedFieldIds ↔
      f ∈ fields ∧ (s.derivedFieldIds = [] ∨ f.id ∈ s.derivedFieldIds) := by
  unfold candidates
  split
  · rename_i hempty
    simp [List.isEmpty_iff.mp hempty]
  · rename_i hsome
    simp [mt List.isEmpty_iff.mpr hsome]

theorem isStale_reconciled_eq_false {f : DerivedField} {models : List String} :
    (f.reconciled models).isStale = false ↔ ∀ m ∈ f.effectiveModels, m ∈ models := by
  rw [← Bool.not_eq_true, DerivedField.isStale_reconciled]
  simp

/-- The columns are made of the admitted fields that have a tree. -/
theorem mem_written {fields : List DerivedField} {g : DerivedField} {tree : Expr} :
    (g, tree) ∈ written (chosenFields s fields) ↔
      ∃ f ∈ fields, s.Admits f ∧ f.tree = some tree ∧ g = f.reconciled (Collection.distinct s.models) := by
  have htree (f : DerivedField) : (f.reconciled (Collection.distinct s.models)).tree = f.tree := by
    unfold DerivedField.reconciled
    split <;> rfl
  rw [written, List.mem_filterMap, chosenFields, DerivedField.reconcile]
  simp only [List.mem_map, mem_candidates]
  constructor
  · rintro ⟨_, ⟨f, ⟨hf, hwanted⟩, rfl⟩, h⟩
    split at h
    · rename_i hshown
      obtain ⟨hvisible, hcurrent⟩ := Bool.and_eq_true_iff.mp hshown
      obtain ⟨e, he, hpair⟩ := Option.map_eq_some_iff.mp h
      cases hpair
      rw [DerivedField.visible_reconciled] at hvisible
      rw [Bool.not_eq_true', isStale_reconciled_eq_false] at hcurrent
      rw [htree] at he
      exact ⟨f, hf, ⟨hwanted, hvisible, fun m hm => Collection.mem_distinct.mp (hcurrent m hm)⟩, he, rfl⟩
    · cases h
  · rintro ⟨f, hf, ⟨hwanted, hvisible, hcurrent⟩, he, rfl⟩
    refine ⟨_, ⟨f, ⟨hf, hwanted⟩, rfl⟩, ?_⟩
    have hfresh : (f.reconciled (Collection.distinct s.models)).isStale = false :=
      isStale_reconciled_eq_false.mpr fun m hm => Collection.mem_distinct.mpr (hcurrent m hm)
    simp [DerivedField.visible_reconciled, hvisible, hfresh, htree, he]

/-- Derived columns are made of all written fields, each of its own, or of none. -/
theorem derivedColumns_eq_ok {fields : List DerivedField} (htrimmed : ∀ p ∈ written fields, p.2.Trimmed)
    {ds : List DerivedColumn} (h : derivedColumns fields = .ok ds) :
    List.Forall₂ (fun p d => d.Of p.1 p.2) (written fields) ds ∧ ∀ p ∈ written fields, p.2.fault? = none := by
  have hall : ∀ p ∈ written fields, p.2.fault? = none := by
    intro p hp
    obtain ⟨d, hd⟩ := Outcome.exists_mapM_eq_ok.mp ⟨ds, h⟩ p hp
    cases hfault : p.2.fault? with
    | none => rfl
    | some fault =>
      rw [derivedColumn_of_fault (htrimmed p hp) hfault] at hd
      cases hd
  refine ⟨(List.forall₂_iff_zip.mpr ⟨(Outcome.mapM_eq_ok.mp h).length_eq, fun {p d} hpd => ?_⟩), hall⟩
  have hp := (List.of_mem_zip hpd).1
  have hd : derivedColumn p.1 p.2 = .ok d := (List.forall₂_iff_zip.mp (Outcome.mapM_eq_ok.mp h)).2 hpd
  obtain ⟨d', hd', hof⟩ := derivedColumn_of_written (htrimmed p hp) (hall p hp)
  rw [hd'] at hd
  cases hd
  exact hof

theorem derivedColumns_of_written {fields : List DerivedField} (htrimmed : ∀ p ∈ written fields, p.2.Trimmed)
    (h : ∀ p ∈ written fields, p.2.fault? = none) : ∃ ds, derivedColumns fields = .ok ds := by
  refine Outcome.exists_mapM_eq_ok.mpr fun p hp => ?_
  obtain ⟨d, hd, -⟩ := derivedColumn_of_written (htrimmed p hp) (h p hp)
  exact ⟨d, hd⟩

theorem derivedColumns_eq_error {fields : List DerivedField} (htrimmed : ∀ p ∈ written fields, p.2.Trimmed)
    {failure : Failure} (h : derivedColumns fields = .error failure) :
    ∃ p ∈ written fields, ∃ fault, p.2.fault? = some fault ∧ failure = unwritable fault := by
  obtain ⟨p, hp, hfail⟩ := Outcome.exists_of_mapM_eq_error h
  refine ⟨p, hp, ?_⟩
  cases hfault : p.2.fault? with
  | none =>
    obtain ⟨d, hd, -⟩ := derivedColumn_of_written (htrimmed p hp) hfault
    rw [hd] at hfail
    cases hfail
  | some fault =>
    rw [derivedColumn_of_fault (htrimmed p hp) hfault] at hfail
    cases hfail
    exact ⟨fault, rfl, rfl⟩

/-- What is kept has aliases that are free, each once. -/
theorem withFreeAliases_free (taken : List String) (ds : List DerivedColumn) :
    ((withFreeAliases taken ds).1.map (·.outputAlias)).Nodup ∧
      ∀ d ∈ (withFreeAliases taken ds).1, d ∈ ds ∧ d.outputAlias ∉ taken := by
  induction ds generalizing taken with
  | nil => exact ⟨List.nodup_nil, fun d hd => nomatch hd⟩
  | cons d ds ih =>
    rw [withFreeAliases]
    split
    · obtain ⟨hnodup, hfree⟩ := ih taken
      exact ⟨hnodup, fun e he => ⟨List.mem_cons_of_mem d (hfree e he).1, (hfree e he).2⟩⟩
    · rename_i htaken
      obtain ⟨hnodup, hfree⟩ := ih (d.outputAlias :: taken)
      refine ⟨List.nodup_cons.mpr ⟨fun hmem => ?_, hnodup⟩, fun e he => ?_⟩
      · obtain ⟨e, he, hsame⟩ := List.mem_map.mp hmem
        exact (hfree e he).2 (by rw [hsame]; exact List.mem_cons_self)
      · rcases List.mem_cons.mp he with rfl | he
        · exact ⟨List.mem_cons_self, by simpa using htaken⟩
        · obtain ⟨hmem, hnot⟩ := hfree e he
          exact ⟨List.mem_cons_of_mem d hmem, fun hmem => hnot (List.mem_cons_of_mem _ hmem)⟩

end Query

end AdhocReport
