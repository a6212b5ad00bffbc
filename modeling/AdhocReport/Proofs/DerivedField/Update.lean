import AdhocReport.Proofs.Check.Valid
import AdhocReport.Proofs.DerivedField.Definition
import AdhocReport.Service.System
set_option autoImplicit false

/-!
# Derived fields: what a change leaves

A request for a change tells a member that is missing from one that is null, and an attribute whose member is
missing keeps its value.  The attributes that follow from a tree are the exception: they are replaced together
as soon as an expression or a tree is given.  A request that fails leaves the whole system as it was, however
far it came.
-/

namespace AdhocReport.DerivedField

open Schema

/-! ## Members of a request -/

/-- The value that was read for a member tells whether the member was missing or null. -/
structure Given {α : Type} (ms : Check.Members) (key : String) (v : Option (Option α)) : Prop where
  missing : v = none ↔ Json.lookup ms key = none
  null : v = some none ↔ Json.lookup ms key = some .null

/-- The members that a change was read from. -/
structure Change.Reads (change : Change) (ms : Check.Members) : Prop where
  name : Given ms "name" change.name
  expression : Given ms "expression" change.expression
  kind : Given ms "kind" change.kind
  scope : Given ms "scope" change.scope
  expressionAst : Given ms "expression_ast" change.expressionAst
  modelGraphSignature : Given ms "model_graph_signature" change.modelGraphSignature
  metadata : Given ms "metadata" change.metadata

theorem nullable_eq_none {α : Type} {r : Check.Reader α} {j : Json} {v : Option α}
    (h : Check.nullable r j = .valid v) : v = none ↔ j = .null := by
  unfold Check.nullable at h
  split at h
  · cases h
    exact ⟨fun _ => rfl, fun _ => rfl⟩
  · rename_i hvalue
    have hread : (some <$> r j : Check.Checked (Option α)) = .valid v := h
    obtain ⟨a, -, rfl⟩ := Check.Checked.map_eq_valid.mp hread
    constructor
    · intro hnone
      cases hnone
    · intro hnull
      exact absurd hnull hvalue

theorem given_of_valid {α : Type} {ms : Check.Members} {key : String} {r : Check.Reader α}
    {v : Option (Option α)} (h : given ms key r = .valid v) : Given ms key v := by
  unfold given Check.defaulted at h
  split at h
  · rename_i j hlookup
    have hsome : (some <$> Check.nullable r j : Check.Checked (Option (Option α))) = .valid v :=
      Check.Checked.under_eq_valid.mp h
    obtain ⟨w, hread, rfl⟩ := Check.Checked.map_eq_valid.mp hsome
    constructor
    · simp [hlookup]
    · rw [hlookup, Option.some.injEq, Option.some.injEq]
      exact nullable_eq_none hread
  · rename_i hlookup
    cases h
    constructor <;> simp [hlookup]

theorem reads_of_valid {j : Json} {change : Change} (h : Change.reader j = .valid change) :
    ∃ ms, j = .obj ms ∧ change.Reads ms := by
  obtain ⟨ms, rfl, hbuilt⟩ := Check.record_eq_valid h
  simp only [Check.Checked.seq_eq_valid, Check.Checked.map_eq_valid] at hbuilt
  obtain ⟨_, metadata, ⟨_, signature, ⟨_, tree, ⟨_, scope, ⟨_, kind, ⟨_, expression, ⟨name, hname, rfl⟩,
    hexpression, rfl⟩, hkind, rfl⟩, hscope, rfl⟩, htree, rfl⟩, hsignature, rfl⟩, hmetadata, rfl⟩ := hbuilt
  exact ⟨ms, rfl, given_of_valid hname, given_of_valid hexpression, given_of_valid hkind,
    given_of_valid hscope, given_of_valid htree, given_of_valid hsignature, given_of_valid hmetadata⟩

/-! ## Attributes -/

/-- The attributes of a definition that follow from its tree. -/
def Definition.derived (d : Definition) :
    Option Json × List String × List (String × List String) × List (String × String) × Option String :=
  (d.expressionAst, d.referencedModels, d.referencedFields, d.joinDependencies, d.compiledSqlHash)

/-- What a change makes of the attributes of a definition.  An attribute whose member was missing is kept,
except for the derived ones, which belong to a tree that the expression stands for, or the record supplied with
it, once either was given. -/
structure Definition.Framed (d : Definition) (registry : Registry) (change : Change) (e : Definition) :
    Prop where
  id : e.id = d.id
  templateId : e.templateId = d.templateId
  createdBy : e.createdBy = d.createdBy
  createdAt : e.createdAt = d.createdAt
  name : e.name = change.name.join.getD d.name
  kind : e.kind = change.kind.join.getD d.kind
  scope : e.scope = change.scope.join.getD d.scope
  expression : e.expression = change.expression.join.getD d.expression
  modelGraphSignature : e.modelGraphSignature = change.modelGraphSignature.getD d.modelGraphSignature
  metadata : e.metadata = change.metadata.getD d.metadata
  kept : change.expression = none → change.expressionAst = none → e.derived = d.derived
  replaced : change.expression ≠ none ∨ change.expressionAst ≠ none →
    ∃ tree, Denotes e.expression change.expressionAst.join tree ∧ registry.Knows tree ∧
      e.derived = (some tree.toJson, tree.models, tree.fieldsByModel, Join.inferredPairs tree.models,
        some (Query.payloadHash tree.toJson))

theorem Change.resets_eq_true {change : Change} :
    change.resets = true ↔ change.expression ≠ none ∨ change.expressionAst ≠ none := by
  cases hexpression : change.expression <;> cases htree : change.expressionAst <;>
    simp [Change.resets, hexpression, htree]

theorem Catalog.Revision.framed {registry : Registry} {d e : Definition} {change : Change}
    (h : Revision registry d change e) : d.Framed registry change e := by
  cases h with
  | kept hkeeps =>
    have hneither : ¬(change.expression ≠ none ∨ change.expressionAst ≠ none) := by
      rw [← Change.resets_eq_true, hkeeps]
      exact Bool.false_ne_true
    have hexpression : change.expression = none := by
      by_contra hgiven
      exact hneither (.inl hgiven)
    refine ⟨rfl, rfl, rfl, rfl, rfl, rfl, rfl, ?_, rfl, rfl, fun _ _ => rfl,
      fun hgiven => absurd hgiven hneither⟩
    rw [hexpression]
    rfl
  | @reset tree hresets hdenotes hknown =>
    refine ⟨rfl, rfl, rfl, rfl, rfl, rfl, rfl, rfl, rfl, rfl, fun hexpression htree => ?_,
      fun _ => ⟨tree, hdenotes, hknown, rfl⟩⟩
    rcases Change.resets_eq_true.mp hresets with hgiven | hgiven
    · exact absurd hexpression hgiven
    · exact absurd htree hgiven

/-- A definition can be revised unless a tree has to be found for it and there is none whose references are
known. -/
theorem Catalog.exists_revision {registry : Registry} {d : Definition} {change : Change} :
    (∃ e, Revision registry d change e) ↔
      (change.expression ≠ none ∨ change.expressionAst ≠ none →
        ∃ tree, Denotes (change.expression.join.getD d.expression) change.expressionAst.join tree ∧
          registry.Knows tree) := by
  rw [← Change.resets_eq_true]
  constructor
  · rintro ⟨e, hrevision⟩ hresets
    cases hrevision with
    | kept hkeeps =>
      rw [hresets] at hkeeps
      cases hkeeps
    | @reset tree _ hdenotes hknown => exact ⟨tree, hdenotes, hknown⟩
  · intro h
    cases hresets : change.resets with
    | false => exact ⟨_, .kept hresets⟩
    | true =>
      obtain ⟨tree, hdenotes, hknown⟩ := h hresets
      exact ⟨_, .reset hresets hdenotes hknown⟩

/-! ## The catalog -/

/-- Replacing a definition is seen under its id only. -/
theorem Catalog.find?_replace (c : Catalog) (e : Definition) (id : String) :
    (c.replace e).find? id = (c.find? id).map fun d => if d.id = e.id then e else d := by
  have hid (d : Definition) : (if d.id = e.id then e else d).id = d.id := by
    split
    · rename_i hsame
      exact hsame.symm
    · rfl
  simp only [find?, replace, List.find?_map, Function.comp_def, hid]

theorem Catalog.find?_replace_self {c : Catalog} {d e : Definition} {id : String}
    (hfound : c.find? id = some d) (hid : e.id = d.id) : (c.replace e).find? id = some e := by
  rw [find?_replace, hfound, Option.map_some, if_pos hid.symm]

theorem Catalog.find?_replace_other {c : Catalog} {e : Definition} {id : String} (hother : id ≠ e.id) :
    (c.replace e).find? id = c.find? id := by
  rw [find?_replace]
  cases hfound : c.find? id with
  | none => rfl
  | some d => rw [Option.map_some, if_neg (by rwa [(mem_of_find? hfound).2])]

theorem Catalog.exists_update {c : Catalog} {registry : Registry} {id : String} {change : Change} :
    (∃ p, c.update registry id change = .ok p) ↔ change.Filled ∧ ∃ d, c.find? id = some d ∧
      (change.expression ≠ none ∨ change.expressionAst ≠ none →
        ∃ tree, Denotes (change.expression.join.getD d.expression) change.expressionAst.join tree ∧
          registry.Knows tree) := by
  constructor
  · rintro ⟨⟨e, t⟩, hupdate⟩
    obtain ⟨d, hfound, hfilled, hrevision, -⟩ := update_eq_ok.mp hupdate
    exact ⟨hfilled, d, hfound, exists_revision.mp ⟨e, hrevision⟩⟩
  · rintro ⟨hfilled, d, hfound, htree⟩
    obtain ⟨e, hrevision⟩ := exists_revision.mpr htree
    exact ⟨(e, c.replace e), update_eq_ok.mpr ⟨d, hfound, hfilled, hrevision, rfl⟩⟩

end AdhocReport.DerivedField

namespace AdhocReport.Service.System

open DerivedField

/-! ## Requests for a change -/

theorem updateField_of_error (s : System) {id : String} (template : Option String) {body : String}
    {change : Change} {f : Failure} (hbody : readBody Change.reader body = .ok change)
    (hupdate : s.catalog.update s.backend.registry id change = .error f) :
    s.endpoint (.updateField id) template body = (.error (.failure f), s) := by
  simp only [endpoint, reading, hbody, hupdate]
  rfl

theorem updateField_of_ok (s : System) {id : String} (template : Option String) {body : String}
    {change : Change} {e : Definition} {c : Catalog} (hbody : readBody Change.reader body = .ok change)
    (hupdate : s.catalog.update s.backend.registry id change = .ok (e, c)) :
    s.endpoint (.updateField id) template body = (.ok ⟨200, e.toJson⟩, { s with catalog := c }) := by
  simp only [endpoint, reading, hbody, hupdate]
  rfl

theorem updateField_of_unread (s : System) (id : String) (template : Option String) {body : String}
    {t : Trouble} (hbody : readBody Change.reader body = .error t) :
    s.endpoint (.updateField id) template body = (.error t, s) := by
  simp only [endpoint, reading, hbody]

theorem readBody_eq_ok {α : Type} {r : Check.Reader α} {body : String} {a : α} (h : readBody r body = .ok a) :
    ∃ j, Json.read? body = some j ∧ r j = .valid a := by
  unfold readBody at h
  split at h
  · cases h
  · split at h
    · cases h
    · rename_i j hread
      refine ⟨j, hread, ?_⟩
      split at h
      · rename_i hvalid
        cases h
        exact hvalid
      · cases h
      · cases h

/-- A request for a change that fails, for whatever reason, leaves the system as it was.  One that is read as a
change succeeds exactly when it gives no null for a name, a kind or a scope, the definition is there, and, if
it gives an expression or a tree, these stand for a tree with known references.  Then the system has a new
definition in the place of the one with that id, and no other definition, job or stored result differs; and of
that definition only what was given differs, and what follows from the tree. -/
theorem update_framed (s : System) (id : String) (template : Option String) (body : String) :
    let registry := s.backend.registry
    let answered := s.endpoint (.updateField id) template body
    (∀ t, answered.1 = .error t → answered.2 = s) ∧
    (∀ a, answered.1 = .ok a → ∃ change, readBody Change.reader body = .ok change) ∧
    ∀ change, readBody Change.reader body = .ok change →
      (∃ ms, Json.read? body = some (.obj ms) ∧ change.Reads ms) ∧
      ((∃ a, answered.1 = .ok a) ↔ change.Filled ∧ ∃ d, s.catalog.find? id = some d ∧
        (change.expression ≠ none ∨ change.expressionAst ≠ none →
          ∃ tree, Denotes (change.expression.join.getD d.expression) change.expressionAst.join tree ∧
            registry.Knows tree)) ∧
      ∀ a, answered.1 = .ok a → ∃ d e, s.catalog.find? id = some d ∧ a = ⟨200, e.toJson⟩ ∧
        d.Framed registry change e ∧
        answered.2 = { s with catalog := { s.catalog with
          definitions := s.catalog.definitions.map fun k => if k.id = id then e else k } } ∧
        answered.2.catalog.find? id = some e ∧
        ∀ other, other ≠ id → answered.2.catalog.find? other = s.catalog.find? other := by
  intro registry answered
  cases hbody : readBody Change.reader body with
  | error t =>
    have hanswered : answered = (.error t, s) := s.updateField_of_unread id template hbody
    rw [hanswered]
    refine ⟨fun _ _ => rfl, fun a h => ?_, fun change h => ?_⟩
    · cases h
    · cases h
  | ok change =>
    obtain ⟨j, hread, hvalid⟩ := readBody_eq_ok hbody
    obtain ⟨ms, rfl, hreads⟩ := reads_of_valid hvalid
    have hsucceeds := @Catalog.exists_update s.catalog registry id change
    cases hupdate : s.catalog.update registry id change with
    | error f =>
      have hanswered : answered = (.error (.failure f), s) := s.updateField_of_error template hbody hupdate
      rw [hanswered]
      refine ⟨fun _ _ => rfl, fun a h => ?_, ?_⟩
      · cases h
      · rintro _ ⟨⟩
        refine ⟨⟨ms, hread, hreads⟩, ?_, fun a h => ?_⟩
        · rw [← hsucceeds, hupdate]
          simp
        · cases h
    | ok p =>
      obtain ⟨e, c⟩ := p
      obtain ⟨d, hfound, hfilled, hrevision, rfl⟩ := Catalog.update_eq_ok.mp hupdate
      have hanswered : answered = (.ok ⟨200, e.toJson⟩, { s with catalog := s.catalog.replace e }) :=
        s.updateField_of_ok template hbody hupdate
      have hid : e.id = id := hrevision.framed.id.trans (Catalog.mem_of_find? hfound).2
      rw [hanswered]
      refine ⟨fun t h => ?_, fun _ _ => ⟨change, rfl⟩, ?_⟩
      · cases h
      · rintro _ ⟨⟩
        refine ⟨⟨ms, hread, hreads⟩, ?_, ?_⟩
        · rw [← hsucceeds, hupdate]
          simp
        · rintro _ ⟨⟩
          have hnew := Catalog.find?_replace_self hfound hrevision.framed.id
          refine ⟨d, e, hfound, rfl, hrevision.framed, ?_, hnew, ?_⟩
          · rw [← hid]
            rfl
          · intro other hother
            exact Catalog.find?_replace_other (by rwa [hid])

/-- A request that gives null for the metadata of a field clears them, one that gives a name keeps them, and
one for a field that is not there changes nothing. -/
theorem update_framed_metadata :
    let d : Definition := ⟨"field-001", none, .workspace, "One", "1", .row, none, [], [], [], none, none,
      some (.obj [("unit", .str "kg")]), "system", ⟨⟨2024, 6, 1⟩, 12, 0, 0, 0, none⟩⟩
    let s : System := ⟨⟨.standard, ⟨[]⟩, [], fun _ => []⟩, .record, d.createdAt, .empty, ⟨[d], 1⟩⟩
    let after (id body : String) : System := (s.endpoint (.updateField id) none body).2
    (∃ e, (after "field-001" "\x7b\"metadata\":null\x7d").catalog.find? "field-001" = some e ∧
      e.metadata = none ∧ e.name = "One" ∧ e.derived = d.derived) ∧
    (∃ e, (after "field-001" "\x7b\"name\":\"Two\"\x7d").catalog.find? "field-001" = some e ∧
      e.metadata = d.metadata ∧ e.name = "Two" ∧ e.derived = d.derived) ∧
    after "field-002" "\x7b\"name\":\"Two\"\x7d" = s := by
  intro d s after
  have hnull : readBody Change.reader "\x7b\"metadata\":null\x7d" =
      .ok ⟨none, none, none, none, none, none, some none⟩ := by
    have hchars : "\x7b\"metadata\":null\x7d".toList =
      ['\x7b', '"', 'm', 'e', 't', 'a', 'd', 'a', 't', 'a', '"', ':', 'n', 'u', 'l', 'l', '\x7d'] := rfl
    have hread : Json.read? "\x7b\"metadata\":null\x7d" = some (.obj [("metadata", .null)]) := by
      rw [Json.read?, hchars]
      rfl
    rw [readBody, hread]
    rfl
  have hname : readBody Change.reader "\x7b\"name\":\"Two\"\x7d" =
      .ok ⟨some (some "Two"), none, none, none, none, none, none⟩ := by
    have hchars : "\x7b\"name\":\"Two\"\x7d".toList =
      ['\x7b', '"', 'n', 'a', 'm', 'e', '"', ':', '"', 'T', 'w', 'o', '"', '\x7d'] := rfl
    have hread : Json.read? "\x7b\"name\":\"Two\"\x7d" = some (.obj [("name", .str "Two")]) := by
      rw [Json.read?, hchars]
      rfl
    rw [readBody, hread]
    rfl
  -- neither request gives an expression or a tree, so that they succeed where the definition is found
  have hsucceeds {body : String} {change : Change} (hbody : readBody Change.reader body = .ok change)
      (hfilled : change.Filled) (hexpression : change.expression = none)
      (htree : change.expressionAst = none) :
      ∃ e, (after "field-001" body).catalog.find? "field-001" = some e ∧
        d.Framed s.backend.registry change e := by
    obtain ⟨-, -, hchange⟩ := update_framed s "field-001" none body
    obtain ⟨-, hsucceeds, hframed⟩ := hchange change hbody
    obtain ⟨a, ha⟩ := hsucceeds.mpr ⟨hfilled, d, rfl, fun hgiven => by simp [hexpression, htree] at hgiven⟩
    obtain ⟨d', e, hfound, -, hframed, -, hnew, -⟩ := hframed a ha
    obtain rfl : d = d' := Option.some.inj hfound
    exact ⟨e, hnew, hframed⟩
  refine ⟨?_, ?_, ?_⟩
  · obtain ⟨e, hnew, hframed⟩ := hsucceeds hnull (by constructor <;> simp) rfl rfl
    exact ⟨e, hnew, hframed.metadata, hframed.name, hframed.kept rfl rfl⟩
  · obtain ⟨e, hnew, hframed⟩ := hsucceeds hname (by constructor <;> simp) rfl rfl
    exact ⟨e, hnew, hframed.metadata, hframed.name, hframed.kept rfl rfl⟩
  · obtain ⟨hfailed, -⟩ := update_framed s "field-002" none "\x7b\"name\":\"Two\"\x7d"
    refine hfailed (.failure Catalog.notFound) ?_
    rw [s.updateField_of_error none hname rfl]

end AdhocReport.Service.System
