import AdhocReport.DerivedField.Catalog
import AdhocReport.Proofs.Collection.Sorting
import AdhocReport.Proofs.Outcome
set_option autoImplicit false

/-!
# Derived fields: what a definition stores

Beside the text of its expression a definition stores the record of a tree and what follows from the tree.
What a single operation on the catalog succeeds with is said here once, with everything it has checked
before, so that facts about histories need not open an operation again.
-/

namespace AdhocReport

/-- Every column of a tree names a model of the registry and a field of that model. -/
def Schema.Registry.Knows (registry : Schema.Registry) (e : Expr) : Prop :=
  ∀ ref ∈ e.columns, registry.hasModel ref.model = true ∧ (registry.field? ref.model ref.field).isSome = true

namespace DerivedField

open Schema

/-- The tree that an expression stands for: that of the record supplied with it, else that of its text. -/
def Denotes (expression : String) (supplied : Option Json) (e : Expr) : Prop :=
  match supplied with
  | none => Expr.parse (some expression) = .ok e
  | some j => Expr.ofJson j = .ok e

/-! ## Analysis -/

theorem treeOf_eq_ok {expression : String} {supplied : Option Json} {e : Expr} :
    treeOf expression supplied = .ok e ↔ Denotes expression supplied e := by
  unfold treeOf Denotes
  cases supplied with
  | none =>
    dsimp only
    cases Expr.parse (some expression) <;> simp
  | some j =>
    dsimp only
    cases Expr.ofJson j with
    | ok tree => simp
    | error fault =>
      dsimp only
      split <;> simp

theorem missingModels_eq_nil {registry : Registry} {e : Expr} :
    missingModels registry e = [] ↔ ∀ ref ∈ e.columns, registry.hasModel ref.model = true := by
  rw [missingModels, List.filter_eq_nil_iff]
  simp [Expr.mem_models]

/-- Once its models are known, a tree has no missing fields exactly when its fields are known too. -/
theorem missingFields_eq_nil {registry : Registry} {e : Expr}
    (hmodels : ∀ ref ∈ e.columns, registry.hasModel ref.model = true) :
    missingFields registry e = [] ↔
      ∀ ref ∈ e.columns, (registry.field? ref.model ref.field).isSome = true := by
  rw [missingFields, List.flatMap_eq_nil_iff]
  constructor
  · intro h ref href
    have hmem : ref.model ∈ e.fieldsByModel.map Prod.fst := by
      rw [Expr.map_fst_fieldsByModel]
      exact Expr.mem_models.mpr ⟨ref, href, rfl⟩
    obtain ⟨p, hp, hmodel⟩ := List.mem_map.mp hmem
    have hnone := h p (List.mem_filter.mpr ⟨hp, by rw [hmodel]; exact hmodels ref href⟩)
    have hfield : ref.field ∈ p.2 := (Expr.mem_of_fieldsByModel hp).mpr (by rw [hmodel]; exact href)
    rw [List.map_eq_nil_iff, List.filter_eq_nil_iff] at hnone
    have hsome := hnone ref.field hfield
    rw [hmodel] at hsome
    simpa [← Option.isSome_iff_ne_none] using hsome
  · intro h p hp
    rw [List.map_eq_nil_iff, List.filter_eq_nil_iff]
    intro field hfield
    have hsome := h ⟨p.1, field⟩ ((Expr.mem_of_fieldsByModel (List.mem_filter.mp hp).1).mp hfield)
    simpa [← Option.isSome_iff_ne_none] using hsome

/-- An analysis is that of a tree that the expression stands for, with references that are known. -/
theorem analyze_eq_ok {registry : Registry} {expression : String} {supplied : Option Json} {a : Analysis} :
    analyze registry expression supplied = .ok a ↔
      ∃ e, Denotes expression supplied e ∧ registry.Knows e ∧ a = .ofTree e := by
  have hknown (e : Expr) : ((missingModels registry e).isEmpty && (missingFields registry e).isEmpty) = true ↔
      registry.Knows e := by
    rw [Bool.and_eq_true, List.isEmpty_iff, List.isEmpty_iff]
    constructor
    · rintro ⟨hmodels, hfields⟩ ref href
      have hmodels := missingModels_eq_nil.mp hmodels
      exact ⟨hmodels ref href, (missingFields_eq_nil hmodels).mp hfields ref href⟩
    · intro h
      have hmodels : ∀ ref ∈ e.columns, registry.hasModel ref.model = true := fun ref href => (h ref href).1
      exact ⟨missingModels_eq_nil.mpr hmodels, (missingFields_eq_nil hmodels).mpr fun ref href => (h ref href).2⟩
  simp only [analyze, Outcome.bind_eq_ok, treeOf_eq_ok]
  refine exists_congr fun e => and_congr_right fun _ => ?_
  rw [← hknown]
  split
  · rename_i h
    simp [h, eq_comm]
  · rename_i h
    simp [h]

/-! ## Definitions -/

namespace Definition

/-- What a definition stores follows from a tree: its record, the models of the tree in increasing order,
for each of them its fields in increasing order, the pairs of the models, and the hash of the record.  The
tree refers to fields of the registry only. -/
structure Follows (d : Definition) (registry : Registry) (e : Expr) : Prop where
  record : d.expressionAst = some e.toJson
  known : registry.Knows e
  models_increasing : d.referencedModels.Pairwise (· < ·)
  mem_models : ∀ m, m ∈ d.referencedModels ↔ ∃ ref ∈ e.columns, ref.model = m
  fields_models : d.referencedFields.map Prod.fst = d.referencedModels
  fields_increasing : ∀ p ∈ d.referencedFields, p.2.Pairwise (· < ·)
  mem_fields : ∀ p ∈ d.referencedFields, ∀ field, field ∈ p.2 ↔ ⟨p.1, field⟩ ∈ e.columns
  pairs : d.joinDependencies = Join.inferredPairs d.referencedModels
  hash : d.compiledSqlHash = d.expressionAst.map Query.payloadHash

/-- What an analysis stores follows from its tree. -/
theorem follows_analyzed (d : Definition) {registry : Registry} {e : Expr} (h : registry.Knows e) :
    (d.analyzed (.ofTree e)).Follows registry e where
  record := rfl
  known := h
  models_increasing := Collection.sortedSet_increasing _
  mem_models _ := Expr.mem_models
  fields_models := Expr.map_fst_fieldsByModel e
  fields_increasing p hp := by
    obtain ⟨m, -, rfl⟩ := List.mem_map.mp hp
    exact Collection.sortedSet_increasing _
  mem_fields _ hp _ := Expr.mem_of_fieldsByModel hp
  pairs := rfl
  hash := rfl

/-- The definition with the members that a change gives, except for its expression and its tree. -/
def merged (d : Definition) (change : Change) : Definition :=
  { d with
    name := change.name.join.getD d.name
    kind := change.kind.join.getD d.kind
    scope := change.scope.join.getD d.scope
    modelGraphSignature := change.modelGraphSignature.getD d.modelGraphSignature
    metadata := change.metadata.getD d.metadata }

theorem Follows.merged {d : Definition} {registry : Registry} {e : Expr} (h : d.Follows registry e)
    (change : Change) : (d.merged change).Follows registry e :=
  ⟨h.record, h.known, h.models_increasing, h.mem_models, h.fields_models, h.fields_increasing, h.mem_fields,
    h.pairs, h.hash⟩

end Definition

/-! ## Drafts and changes -/

/-- A draft names a template if its scope is one. -/
def Draft.Placed (draft : Draft) : Prop := draft.scope = .template → draft.templateId.getD "" ≠ ""

theorem Draft.placed_of_workspace {draft : Draft} (h : draft.scope = .workspace) : draft.Placed := by
  intro hscope
  rw [h] at hscope
  cases hscope

/-- The change gives no null for a name, a kind or a scope. -/
structure Change.Filled (change : Change) : Prop where
  name : change.name ≠ some none
  kind : change.kind ≠ some none
  scope : change.scope ≠ some none

/-- The change gives an expression or a tree, be it null. -/
def Change.resets (change : Change) : Bool := !(change.expression.isNone && change.expressionAst.isNone)

namespace Catalog

theorem changed_eq_ok {d e : Definition} {change : Change} :
    changed d change = .ok e ↔ change.Filled ∧ e = d.merged change := by
  constructor
  · intro h
    unfold changed at h
    split at h
    · cases h
    · cases h
    · cases h
    · rename_i hname hkind hscope
      exact ⟨⟨hname, hkind, hscope⟩, (Except.ok.inj h).symm⟩
  · rintro ⟨⟨hname, hkind, hscope⟩, rfl⟩
    unfold changed
    split
    · contradiction
    · contradiction
    · contradiction
    · rfl

/-- A definition is revised by merging the change; if the change gives an expression or a tree, what it
stores is first replaced by what follows from the tree that these stand for. -/
inductive Revision (registry : Registry) (d : Definition) (change : Change) : Definition → Prop
  | kept (hkeeps : change.resets = false) : Revision registry d change (d.merged change)
  | reset {e : Expr} (hresets : change.resets = true)
      (hdenotes : Denotes (change.expression.join.getD d.expression) change.expressionAst.join e)
      (hknown : registry.Knows e) :
    Revision registry d change
      (({ d with expression := change.expression.join.getD d.expression }.analyzed (.ofTree e)).merged change)

theorem revised_eq_ok {registry : Registry} {d e : Definition} {change : Change} :
    revised registry d change = .ok e ↔ change.Filled ∧ Revision registry d change e := by
  have hsplit : (change.expression.isNone && change.expressionAst.isNone) = !change.resets := by
    rw [Change.resets, Bool.not_not]
  rw [revised, hsplit]
  cases hresets : change.resets with
  | false =>
    rw [if_pos (by decide), changed_eq_ok]
    refine and_congr_right fun _ => ⟨?_, ?_⟩
    · rintro rfl
      exact .kept hresets
    · rintro (_ | ⟨hresets', -, -⟩)
      · rfl
      · rw [hresets] at hresets'
        cases hresets'
  | true =>
    rw [if_neg (by decide)]
    simp only [Outcome.bind_eq_ok, analyze_eq_ok, changed_eq_ok]
    constructor
    · rintro ⟨_, ⟨tree, hdenotes, hknown, rfl⟩, hfilled, rfl⟩
      exact ⟨hfilled, .reset hresets hdenotes hknown⟩
    · rintro ⟨hfilled, hrevision⟩
      cases hrevision with
      | kept hkeeps =>
        rw [hresets] at hkeeps
        cases hkeeps
      | @reset tree _ hdenotes hknown => exact ⟨_, ⟨tree, hdenotes, hknown, rfl⟩, hfilled, rfl⟩

/-! ## Operations -/

theorem get_eq_ok {c : Catalog} {id : String} {d : Definition} : c.get id = .ok d ↔ c.find? id = some d := by
  unfold get
  cases c.find? id <;> simp

theorem mem_of_find? {c : Catalog} {id : String} {d : Definition} (h : c.find? id = some d) :
    d ∈ c.definitions ∧ d.id = id :=
  ⟨List.mem_of_find?_eq_some h, by simpa using List.find?_some h⟩

/-- A field is created from a draft that names its template if it has one, and whose expression stands for a
tree with known references. -/
theorem create_eq_ok {c t : Catalog} {registry : Registry} {draft : Draft} {createdBy : String}
    {now : Calendar.Moment} {d : Definition} :
    c.create registry draft createdBy now = .ok (d, t) ↔
      draft.Placed ∧ ∃ e, Denotes draft.expression draft.expressionAst e ∧ registry.Knows e ∧
        d = (c.drafted draft createdBy now).analyzed (.ofTree e) ∧ t = c.insert d := by
  unfold create
  split
  · rename_i hmissing
    constructor
    · intro h
      cases h
    · rintro ⟨hplaced, -⟩
      obtain ⟨hscope, hempty⟩ := Bool.and_eq_true_iff.mp hmissing
      exact absurd (beq_iff_eq.mp hempty) (hplaced (beq_iff_eq.mp hscope))
  · rename_i hnamed
    have hplaced : draft.Placed := by
      intro hscope hempty
      exact hnamed (by rw [hscope, hempty]; rfl)
    simp only [Outcome.bind_eq_ok, analyze_eq_ok]
    constructor
    · rintro ⟨_, ⟨e, hdenotes, hknown, rfl⟩, h⟩
      cases h
      exact ⟨hplaced, e, hdenotes, hknown, rfl, rfl⟩
    · rintro ⟨-, e, hdenotes, hknown, rfl, rfl⟩
      exact ⟨_, ⟨e, hdenotes, hknown, rfl⟩, rfl⟩

theorem update_eq_ok {c t : Catalog} {registry : Registry} {id : String} {change : Change} {e : Definition} :
    c.update registry id change = .ok (e, t) ↔
      ∃ d, c.find? id = some d ∧ change.Filled ∧ Revision registry d change e ∧ t = c.replace e := by
  simp only [update, Outcome.bind_eq_ok, get_eq_ok, revised_eq_ok]
  refine exists_congr fun d => and_congr_right fun _ => ?_
  constructor
  · rintro ⟨_, ⟨hfilled, hrevision⟩, h⟩
    cases h
    exact ⟨hfilled, hrevision, rfl⟩
  · rintro ⟨hfilled, hrevision, rfl⟩
    exact ⟨e, ⟨hfilled, hrevision⟩, rfl⟩

theorem delete_eq_ok {c t : Catalog} {id : String} :
    c.delete id = .ok t ↔
      (c.find? id).isSome = true ∧ t = { c with definitions := c.definitions.filter fun d => d.id != id } := by
  simp only [delete, Outcome.bind_eq_ok, get_eq_ok, Option.isSome_iff_exists]
  constructor
  · rintro ⟨d, hd, h⟩
    exact ⟨⟨d, hd⟩, (Except.ok.inj h).symm⟩
  · rintro ⟨⟨d, hd⟩, rfl⟩
    exact ⟨d, hd, rfl⟩

end Catalog

end DerivedField

end AdhocReport
