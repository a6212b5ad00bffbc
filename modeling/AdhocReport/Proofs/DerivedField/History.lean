import AdhocReport.Proofs.Decimal.Notation
import AdhocReport.Proofs.DerivedField.Definition
import AdhocReport.Proofs.Expression.Parsing
set_option autoImplicit false

/-!
# Derived fields: histories of the catalog

A catalog is asked to create, change and delete definitions, one call after another; a call that fails
changes nothing.  A history keeps beside the catalog what the last call that set the expression or the tree
of a definition supplied in place of the text, and this is what the stored tree is explained by.
-/

namespace AdhocReport.DerivedField

open Schema

/-- A call that may change a catalog. -/
inductive Call where
  | create (draft : Draft) (createdBy : String) (now : Calendar.Moment)
  | update (id : String) (change : Change)
  | delete (id : String)

/-- The catalog after a call, or the failure of the call. -/
def Catalog.perform (c : Catalog) (registry : Registry) : Call → Except Failure Catalog
  | .create draft createdBy now => (c.create registry draft createdBy now).map Prod.snd
  | .update id change => (c.update registry id change).map Prod.snd
  | .delete id => c.delete id

/-- The definition whose expression or tree a call sets, by its id, with the record that the call supplies
for it; the record is missing when the text is to be parsed. -/
def Call.sets (c : Catalog) : Call → Option (String × Option Json)
  | .create draft _ _ => some (c.nextId, draft.expressionAst)
  | .update id change => if change.resets then some (id, change.expressionAst.join) else none
  | .delete _ => none

/-- A catalog, and what the calls before have supplied for its definitions, the latest first. -/
structure History where
  catalog : Catalog
  supplied : List (String × Option Json)

namespace History

/-- The history before the first call. -/
def start : History := ⟨.empty, []⟩

/-- The history after one more call. -/
def step (registry : Registry) (h : History) (call : Call) : History :=
  match h.catalog.perform registry call with
  | .ok c => ⟨c, (call.sets h.catalog).toList ++ h.supplied⟩
  | .error _ => h

/-- The history of a list of calls to an empty catalog. -/
def run (registry : Registry) (calls : List Call) : History := calls.foldl (step registry) start

/-- The tree explains the definition: it is the one that the expression stands for, given what was supplied
last, and everything stored follows from it. -/
structure Explains (h : History) (registry : Registry) (d : Definition) (e : Expr) : Prop where
  denotes : ∃ supplied, h.supplied.lookup d.id = some supplied ∧ Denotes d.expression supplied e
  follows : d.Follows registry e

/-- The definitions have ids that were given out before, and each of them is explained by a tree. -/
structure Sound (h : History) (registry : Registry) : Prop where
  numbered : ∀ d ∈ h.catalog.definitions, ∃ n < h.catalog.inserted, d.id = "field-" ++ Decimal.padded 3 (n + 1)
  explained : ∀ d ∈ h.catalog.definitions, ∃ e, h.Explains registry d e

end History

/-! ## What a call does -/

/-- What a call that succeeds does to a catalog. -/
inductive Call.Effect (c : Catalog) (registry : Registry) : Call → Catalog → Prop
  | created {draft : Draft} {createdBy : String} {now : Calendar.Moment} {e : Expr} (hplaced : draft.Placed)
      (hdenotes : Denotes draft.expression draft.expressionAst e) (hknown : registry.Knows e) :
    Effect c registry (.create draft createdBy now)
      (c.insert ((c.drafted draft createdBy now).analyzed (.ofTree e)))
  | updated {id : String} {change : Change} {d e : Definition} (hfound : c.find? id = some d)
      (hfilled : change.Filled) (hrevision : Catalog.Revision registry d change e) :
    Effect c registry (.update id change) (c.replace e)
  | deleted {id : String} (hfound : (c.find? id).isSome = true) :
    Effect c registry (.delete id) { c with definitions := c.definitions.filter fun d => d.id != id }

theorem Catalog.perform_eq_ok {c t : Catalog} {registry : Registry} {call : Call} :
    c.perform registry call = .ok t ↔ call.Effect c registry t := by
  have hmap {α : Type} (x : Except Failure (α × Catalog)) :
      x.map Prod.snd = .ok t ↔ ∃ d, x = .ok (d, t) := by
    cases x with
    | error f => simp [Except.map]
    | ok p => simp [Except.map, Prod.ext_iff]
  cases call with
  | create draft createdBy now =>
    simp only [perform, hmap, create_eq_ok]
    constructor
    · rintro ⟨_, hplaced, e, hdenotes, hknown, rfl, rfl⟩
      exact .created hplaced hdenotes hknown
    · rintro ⟨hplaced, hdenotes, hknown⟩
      exact ⟨_, hplaced, _, hdenotes, hknown, rfl, rfl⟩
  | update id change =>
    simp only [perform, hmap, update_eq_ok]
    constructor
    · rintro ⟨e, d, hfound, hfilled, hrevision, rfl⟩
      exact .updated hfound hfilled hrevision
    · rintro (_ | ⟨hfound, hfilled, hrevision⟩)
      exact ⟨_, _, hfound, hfilled, hrevision, rfl⟩
  | delete id =>
    simp only [perform, delete_eq_ok]
    constructor
    · rintro ⟨hfound, rfl⟩
      exact .deleted hfound
    · rintro (_ | _ | hfound)
      exact ⟨hfound, rfl⟩

/-- A call fails and changes nothing, or has its effect. -/
theorem History.step_cases (registry : Registry) (h : History) (call : Call) :
    h.step registry call = h ∨
      ∃ c, call.Effect h.catalog registry c ∧
        h.step registry call = ⟨c, (call.sets h.catalog).toList ++ h.supplied⟩ := by
  unfold History.step
  split
  · rename_i c hperform
    exact .inr ⟨c, Catalog.perform_eq_ok.mp hperform, rfl⟩
  · exact .inl rfl

theorem History.step_of_effect {registry : Registry} {h : History} {call : Call} {c : Catalog}
    (heffect : call.Effect h.catalog registry c) :
    h.step registry call = ⟨c, (call.sets h.catalog).toList ++ h.supplied⟩ := by
  rw [History.step, Catalog.perform_eq_ok.mpr heffect]

theorem Catalog.mem_replace {c : Catalog} {d e : Definition} :
    d ∈ (c.replace e).definitions ↔
      d = e ∧ (∃ d' ∈ c.definitions, d'.id = e.id) ∨ d ∈ c.definitions ∧ d.id ≠ e.id := by
  simp only [replace, List.mem_map]
  constructor
  · rintro ⟨d', hmem, rfl⟩
    by_cases hid : d'.id = e.id
    · exact .inl ⟨if_pos hid, d', hmem, hid⟩
    · rw [if_neg hid]
      exact .inr ⟨hmem, hid⟩
  · rintro (⟨rfl, d', hmem, hid⟩ | ⟨hmem, hid⟩)
    · exact ⟨d', hmem, if_pos hid⟩
    · exact ⟨d, hmem, if_neg hid⟩

theorem Catalog.Revision.id_eq {registry : Registry} {d e : Definition} {change : Change}
    (h : Revision registry d change e) : e.id = d.id := by
  cases h <;> rfl

/-! ## What a history keeps -/

namespace History

variable {registry : Registry} {h : History}

/-- What is supplied for one definition does not explain another. -/
theorem Explains.supplied_other {d : Definition} {e : Expr} (hd : h.Explains registry d e) {c : Catalog}
    {id : String} {supplied : Option Json} (hid : d.id ≠ id) :
    Explains ⟨c, (id, supplied) :: h.supplied⟩ registry d e := by
  obtain ⟨⟨last, hlast, hdenotes⟩, hfollows⟩ := hd
  refine ⟨⟨last, ?_, hdenotes⟩, hfollows⟩
  rw [List.lookup_cons, beq_eq_false_iff_ne.mpr hid]
  exact hlast

/-- A definition is explained by the tree for which it was just analyzed. -/
theorem explains_supplied {d : Definition} {e : Expr} {c : Catalog} {id : String} {supplied : Option Json}
    (hid : d.id = id) (hdenotes : Denotes d.expression supplied e) (hfollows : d.Follows registry e) :
    Explains ⟨c, (id, supplied) :: h.supplied⟩ registry d e :=
  ⟨⟨supplied, by rw [List.lookup_cons, beq_iff_eq.mpr hid], hdenotes⟩, hfollows⟩

theorem Sound.created (hsound : h.Sound registry) {draft : Draft} {createdBy : String}
    {now : Calendar.Moment} {e : Expr} (hdenotes : Denotes draft.expression draft.expressionAst e)
    (hknown : registry.Knows e) :
    Sound ⟨h.catalog.insert ((h.catalog.drafted draft createdBy now).analyzed (.ofTree e)),
      (h.catalog.nextId, draft.expressionAst) :: h.supplied⟩ registry := by
  constructor
  · intro d hd
    rcases List.mem_append.mp hd with hold | hnew
    · obtain ⟨n, hn, hid⟩ := hsound.numbered d hold
      exact ⟨n, Nat.lt_succ_of_lt hn, hid⟩
    · rw [List.mem_singleton.mp hnew]
      exact ⟨h.catalog.inserted, Nat.lt_succ_self _, rfl⟩
  · intro d hd
    rcases List.mem_append.mp hd with hold | hnew
    · obtain ⟨n, hn, hid⟩ := hsound.numbered d hold
      have hother : d.id ≠ h.catalog.nextId := by
        intro hsame
        have : n + 1 = h.catalog.inserted + 1 := Decimal.append_padded_injective (hid.symm.trans hsame)
        omega
      obtain ⟨tree, htree⟩ := hsound.explained d hold
      exact ⟨tree, htree.supplied_other hother⟩
    · rw [List.mem_singleton.mp hnew]
      exact ⟨e, explains_supplied rfl hdenotes (Definition.follows_analyzed _ hknown)⟩

theorem Sound.updated (hsound : h.Sound registry) {id : String} {change : Change} {d e : Definition}
    (hfound : h.catalog.find? id = some d) (hrevision : Catalog.Revision registry d change e) :
    Sound ⟨h.catalog.replace e, ((Call.update id change).sets h.catalog).toList ++ h.supplied⟩ registry := by
  obtain ⟨hmem, hid⟩ := Catalog.mem_of_find? hfound
  have heid : e.id = id := hrevision.id_eq.trans hid
  constructor
  · intro d' hd'
    rcases Catalog.mem_replace.mp hd' with ⟨rfl, -⟩ | ⟨hold, -⟩
    · rw [hrevision.id_eq]
      exact hsound.numbered d hmem
    · exact hsound.numbered d' hold
  · intro d' hd'
    cases hrevision with
    | kept hkeeps =>
      rw [Call.sets, hkeeps]
      rcases Catalog.mem_replace.mp hd' with ⟨rfl, -⟩ | ⟨hold, -⟩
      · obtain ⟨tree, ⟨hdenotes, hfollows⟩⟩ := hsound.explained d hmem
        exact ⟨tree, hdenotes, hfollows.merged change⟩
      · obtain ⟨tree, ⟨hdenotes, hfollows⟩⟩ := hsound.explained d' hold
        exact ⟨tree, hdenotes, hfollows⟩
    | @reset tree hresets hdenotes hknown =>
      rw [Call.sets, hresets]
      rcases Catalog.mem_replace.mp hd' with ⟨rfl, -⟩ | ⟨hold, hother⟩
      · exact ⟨tree, explains_supplied heid hdenotes ((Definition.follows_analyzed _ hknown).merged change)⟩
      · obtain ⟨tree, htree⟩ := hsound.explained d' hold
        exact ⟨tree, htree.supplied_other fun hsame => hother (hsame.trans heid.symm)⟩

theorem Sound.step (hsound : h.Sound registry) (call : Call) : (h.step registry call).Sound registry := by
  rcases h.step_cases registry call with hfailed | ⟨c, heffect, hstep⟩
  · rwa [hfailed]
  · rw [hstep]
    cases heffect with
    | created hplaced hdenotes hknown => exact hsound.created hdenotes hknown
    | updated hfound hfilled hrevision => exact hsound.updated hfound hrevision
    | deleted hfound =>
      refine ⟨fun d hd => hsound.numbered d (List.mem_filter.mp hd).1, fun d hd => ?_⟩
      obtain ⟨tree, ⟨hdenotes, hfollows⟩⟩ := hsound.explained d (List.mem_filter.mp hd).1
      exact ⟨tree, hdenotes, hfollows⟩

theorem run_append (registry : Registry) (before after : List Call) :
    run registry (before ++ after) = after.foldl (step registry) (run registry before) :=
  List.foldl_append

theorem run_sound (registry : Registry) (calls : List Call) : (run registry calls).Sound registry := by
  induction calls using List.reverseRecOn with
  | nil => exact ⟨List.forall_mem_nil _, List.forall_mem_nil _⟩
  | append_singleton calls call ih =>
    rw [run_append]
    exact ih.step call

theorem denotes_one : Denotes "1" none (.literal (.int 1)) := by
  have hscan : Token.scan "1" = .ok [⟨.number, ['1'], 0⟩, ⟨.ending, [], 1⟩] := rfl
  exact (Expr.parse_eq_ok_iff hscan).mpr (.term (.factor (.primary (.number rfl))))

/-- After every list of calls, each definition stores what follows from one tree with known references: the
tree of the record that was supplied when its expression or its tree was last set, and if none was supplied,
the tree of its text. -/
theorem run_explained (registry : Registry) (calls : List Call) :
    ∀ d ∈ (run registry calls).catalog.definitions, ∃ e supplied,
      d.Follows registry e ∧ (run registry calls).supplied.lookup d.id = some supplied ∧
      (supplied = none → Expr.parse (some d.expression) = .ok e) ∧
      ∀ j, supplied = some j → Expr.ofJson j = .ok e := by
  intro d hd
  obtain ⟨e, ⟨supplied, hlast, hdenotes⟩, hfollows⟩ := (run_sound registry calls).explained d hd
  refine ⟨e, supplied, hfollows, hlast, ?_, ?_⟩
  · rintro rfl
    exact hdenotes
  · rintro j rfl
    exact hdenotes

/-- A definition is created from the text `1`; then the tree of another column is supplied for it, its text
stays, and two calls fail.  What is stored follows from the column. -/
theorem run_explained_supplied :
    let field (id : String) : Field := ⟨id, id, .number, none, false, false, "INTEGER"⟩
    let registry : Registry := ⟨[⟨"a", "a", "a", [field "b", field "c"], [], ""⟩]⟩
    let record : Json := .obj [("type", .str "column"), ("model_id", .str "a"), ("field_id", .str "c")]
    let draft : Draft := ⟨"One", "1", .row, .workspace, none, none, none, none⟩
    let change : Change := ⟨none, none, none, none, some (some record), none, none⟩
    let calls : List Call :=
      [.create draft "system" ⟨⟨2024, 6, 1⟩, 12, 0, 0, 0, none⟩, .update "field-001" change,
        .update "field-001" { change with name := some none }, .delete "field-002"]
    ∃ d, (run registry calls).catalog.definitions = [d] ∧ d.expression = "1" ∧
      d.Follows registry (.column ⟨"a", "c"⟩) := by
  intro field registry record draft change calls
  have hone : Denotes draft.expression draft.expressionAst (.literal (.int 1)) := denotes_one
  have hrecord : Expr.ofJson record = .ok (.column ⟨"a", "c"⟩) := rfl
  have hknown : registry.Knows (.column ⟨"a", "c"⟩) := List.forall_mem_singleton.mpr ⟨rfl, rfl⟩
  have hplaced : draft.Placed := Draft.placed_of_workspace rfl
  have hfilled : change.Filled := by constructor <;> simp [change]
  have hreset (d : Definition) := @Catalog.Revision.reset registry d change _ rfl hrecord hknown
  have hrun : ∃ d, (run registry calls).catalog.definitions = [d] ∧ d.expression = "1" ∧
      (run registry calls).supplied.lookup d.id = some (some record) := by
    rw [run, List.foldl_cons, step_of_effect (.created hplaced hone (List.forall_mem_nil _)),
      List.foldl_cons, step_of_effect (.updated rfl hfilled (hreset _))]
    exact ⟨_, rfl, rfl, rfl⟩
  obtain ⟨d, hd, hexpression, hlast⟩ := hrun
  obtain ⟨e, supplied, hfollows, hlast', -, hsupplied⟩ :=
    run_explained registry calls d (by rw [hd]; exact List.mem_singleton_self d)
  obtain rfl : some record = supplied := Option.some.inj (hlast.symm.trans hlast')
  obtain rfl : Expr.column ⟨"a", "c"⟩ = e := Except.ok.inj (hrecord.symm.trans (hsupplied record rfl))
  exact ⟨d, hd, hexpression, hfollows⟩

end History

end AdhocReport.DerivedField
