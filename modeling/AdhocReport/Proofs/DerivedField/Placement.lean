import AdhocReport.Proofs.DerivedField.History
set_option autoImplicit false

/-!
# Derived fields: where definitions are listed

A template is shown the fields of the workspace and its own fields, so a field with the scope of a template
has to name one to be shown anywhere.  Creating a definition checks this.  Changing one does not: the scope
can be changed and the template cannot, and this is the only way to a definition that no template is shown.
-/

namespace AdhocReport.DerivedField

open Schema

/-- The definition names a template if its scope is one. -/
def Definition.Placed (d : Definition) : Prop := d.scope = .template → d.templateId.getD "" ≠ ""

namespace Catalog

/-- Every definition of the catalog that is of a template names it. -/
def Placed (c : Catalog) : Prop := ∀ d ∈ c.definitions, d.Placed

/-- Some template is shown the definition. -/
def Lists (c : Catalog) (d : Definition) : Prop := ∃ t, t ≠ "" ∧ d ∈ c.forTemplate (some t)

theorem mem_forTemplate {c : Catalog} {t : String} (ht : t ≠ "") {d : Definition} :
    d ∈ c.forTemplate (some t) ↔ d ∈ c.definitions ∧ (d.scope = .workspace ∨ d.templateId = some t) := by
  unfold forTemplate
  rw [(Collection.perm_sortBy _ _).mem_iff]
  split
  · contradiction
  · rename_i h
    exact absurd (Option.some.inj h) ht
  · rename_i h
    cases h
    simp

theorem lists_iff_placed {c : Catalog} {d : Definition} (hd : d ∈ c.definitions) : c.Lists d ↔ d.Placed := by
  constructor
  · rintro ⟨t, ht, hmem⟩ hscope
    rcases ((mem_forTemplate ht).mp hmem).2 with hworkspace | hown
    · rw [hscope] at hworkspace
      cases hworkspace
    · rw [hown]
      exact ht
  · intro hplaced
    cases hscope : d.scope with
    | workspace => exact ⟨"t", by decide, (mem_forTemplate (by decide)).mpr ⟨hd, .inl hscope⟩⟩
    | template =>
      have hnamed := hplaced hscope
      cases hown : d.templateId with
      | none =>
        rw [hown] at hnamed
        exact absurd rfl hnamed
      | some t =>
        rw [hown] at hnamed
        exact ⟨t, hnamed, (mem_forTemplate hnamed).mpr ⟨hd, .inr hown⟩⟩

/-- A revision keeps the template, and changes the scope as the change says. -/
theorem Revision.scope_eq {registry : Registry} {d e : Definition} {change : Change}
    (h : Revision registry d change e) :
    e.templateId = d.templateId ∧ e.scope = change.scope.join.getD d.scope := by
  cases h <;> exact ⟨rfl, rfl⟩

end Catalog

/-- The call succeeds and gives the scope of a template to a definition that names none. -/
def Call.Displaces (registry : Registry) (c : Catalog) (call : Call) : Prop :=
  ∃ id change d t, call = .update id change ∧ c.find? id = some d ∧ c.perform registry call = .ok t ∧
    change.scope = some (some .template) ∧ d.templateId.getD "" = ""

/-- One call keeps the definitions of a catalog placed exactly when it displaces none. -/
theorem Call.Effect.placed_iff {c t : Catalog} {registry : Registry} {call : Call}
    (heffect : call.Effect c registry t) (hplaced : c.Placed) : t.Placed ↔ ¬ call.Displaces registry c := by
  cases heffect with
  | @created draft createdBy now e hdraft hdenotes hknown =>
    refine ⟨?_, fun _ d hd => ?_⟩
    · rintro - ⟨id, change, d, t, hcall, -⟩
      cases hcall
    · rcases List.mem_append.mp hd with hold | hnew
      · exact hplaced d hold
      · rw [List.mem_singleton.mp hnew]
        exact hdraft
  | @updated id change d e hfound hfilled hrevision =>
    have hperform := Catalog.perform_eq_ok.mpr (.updated hfound hfilled hrevision)
    obtain ⟨htemplate, hscope⟩ := hrevision.scope_eq
    obtain ⟨hmem, -⟩ := Catalog.mem_of_find? hfound
    constructor
    · rintro hafter ⟨id', change', d', t, hcall, hfound', -, hgiven, hnone⟩
      cases hcall
      cases hfound.symm.trans hfound'
      have hnamed := hafter e (Catalog.mem_replace.mpr (.inl ⟨rfl, d, hmem, hrevision.id_eq.symm⟩))
      rw [Definition.Placed, hscope, htemplate, hgiven] at hnamed
      exact hnamed rfl hnone
    · intro hkeeps d' hd'
      rcases Catalog.mem_replace.mp hd' with ⟨rfl, -⟩ | ⟨hold, -⟩
      · rw [Definition.Placed, hscope, htemplate]
        intro htemplated hnone
        cases hgiven : change.scope with
        | none =>
          rw [hgiven] at htemplated
          exact hplaced d hmem htemplated hnone
        | some scope =>
          cases scope with
          | none => exact hfilled.scope hgiven
          | some scope =>
            rw [hgiven] at htemplated
            cases htemplated
            exact hkeeps ⟨id, change, d, _, rfl, hfound, hperform, hgiven, hnone⟩
      · exact hplaced d' hold
  | deleted hfound =>
    refine ⟨?_, fun _ d hd => hplaced d (List.mem_filter.mp hd).1⟩
    rintro - ⟨id, change, d, t, hcall, -⟩
    cases hcall

namespace History

theorem step_placed_iff {registry : Registry} {h : History} (hplaced : h.catalog.Placed) (call : Call) :
    (h.step registry call).catalog.Placed ↔ ¬ call.Displaces registry h.catalog := by
  rcases hperform : h.catalog.perform registry call with f | c
  · have hsame : h.step registry call = h := by rw [step, hperform]
    rw [hsame]
    refine ⟨?_, fun _ => hplaced⟩
    rintro - ⟨id, change, d, t, -, -, hok, -⟩
    rw [hperform] at hok
    cases hok
  · have heffect := Catalog.perform_eq_ok.mp hperform
    rw [step_of_effect heffect]
    exact heffect.placed_iff hplaced

/-- The catalogs along a list of calls have placed definitions only exactly when none of the calls displaces
one. -/
theorem placed_along_iff (registry : Registry) (calls : List Call) :
    (∀ before, before <+: calls → (run registry before).catalog.Placed) ↔
      ∀ before call, before ++ [call] <+: calls → ¬ call.Displaces registry (run registry before).catalog := by
  constructor
  · intro hplaced before call hprefix
    have hbefore := hplaced before ((List.prefix_append before [call]).trans hprefix)
    have hafter := hplaced _ hprefix
    rw [run_append] at hafter
    exact (step_placed_iff hbefore call).mp hafter
  · intro hkeeps before
    induction before using List.reverseRecOn with
    | nil => exact fun _ => List.forall_mem_nil _
    | append_singleton before call ih =>
      intro hprefix
      rw [run_append]
      exact (step_placed_iff (ih ((List.prefix_append before [call]).trans hprefix)) call).mpr
        (hkeeps before call hprefix)

/-- Along every list of calls to an empty catalog: each definition of a template names it, and each
definition is shown to some template, exactly when no call that succeeds gives the scope of a template to a
definition that names none. -/
theorem placed_and_listed_iff (registry : Registry) (calls : List Call) :
    (∀ before, before <+: calls → ∀ d ∈ (run registry before).catalog.definitions,
      (d.scope = .template → d.templateId.getD "" ≠ "") ∧ (run registry before).catalog.Lists d) ↔
    ∀ before call, before ++ [call] <+: calls → ¬ call.Displaces registry (run registry before).catalog := by
  rw [← placed_along_iff]
  constructor
  · intro h before hprefix d hd
    exact (h before hprefix d hd).1
  · intro h before hprefix d hd
    exact ⟨h before hprefix d hd, (Catalog.lists_iff_placed hd).mpr (h before hprefix d hd)⟩

/-- A definition of the workspace is created without a template and then given the scope of one: it names
none, and no template is shown it. -/
theorem displaced_not_listed :
    let draft : Draft := ⟨"One", "1", .row, .workspace, none, none, none, none⟩
    let change : Change := ⟨none, none, none, some (some .template), none, none, none⟩
    let calls : List Call :=
      [.create draft "system" ⟨⟨2024, 6, 1⟩, 12, 0, 0, 0, none⟩, .update "field-001" change]
    ∃ d, (run ⟨[]⟩ calls).catalog.definitions = [d] ∧ d.scope = .template ∧ d.templateId = none ∧
      ∀ t, t ≠ "" → d ∉ (run ⟨[]⟩ calls).catalog.forTemplate (some t) := by
  intro draft change calls
  have hone : Denotes draft.expression draft.expressionAst (.literal (.int 1)) := denotes_one
  have hplaced : draft.Placed := Draft.placed_of_workspace rfl
  have hfilled : change.Filled := by constructor <;> simp [change]
  have hkept (d : Definition) := @Catalog.Revision.kept ⟨[]⟩ d change rfl
  have hrun : ∃ d, (run ⟨[]⟩ calls).catalog.definitions = [d] ∧ d.scope = .template ∧
      d.templateId = none := by
    rw [run, List.foldl_cons, step_of_effect (.created hplaced hone (List.forall_mem_nil _)),
      List.foldl_cons, step_of_effect (.updated rfl hfilled (hkept _))]
    exact ⟨_, rfl, rfl, rfl⟩
  obtain ⟨d, hd, hscope, htemplate⟩ := hrun
  refine ⟨d, hd, hscope, htemplate, fun t ht hmem => ?_⟩
  rcases ((Catalog.mem_forTemplate ht).mp hmem).2 with hworkspace | hown
  · rw [hscope] at hworkspace
    cases hworkspace
  · rw [htemplate] at hown
    cases hown

end History

end AdhocReport.DerivedField
