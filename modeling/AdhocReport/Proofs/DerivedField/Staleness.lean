import AdhocReport.Proofs.DerivedField.Analysis
import AdhocReport.Proofs.DerivedField.History
import AdhocReport.Proofs.Query.DerivedColumn
set_option autoImplicit false

/-!
# Derived fields: two checks for staleness

Whether a saved field fits a selection of models is checked twice: for the field that a client has loaded,
from the models stored with it, and for the derived column of a query, from the column's tree.  The second
check always says whether the stored tree refers to a model outside the selection.  The first one says the
same except for a tree without references: no stored models are taken for missing ones, and the text is
consulted, which need not be the text of the tree.
-/

namespace AdhocReport.DerivedField

open Schema

namespace Definition

/-- The field is loaded from the definition, which follows from the tree: active, with the models that are
stored, and with the tree if its record can be read back. -/
structure Loads (d : Definition) (e : Expr) (f : DerivedField) : Prop where
  id_eq : f.id = d.id
  expression_eq : f.expression = d.expression
  visible : f.visible = true
  status : f.status = .active
  mem_models : ∀ m, m ∈ f.referencedModels ↔ ∃ ref ∈ e.columns, ref.model = m
  tree_eq : f.tree = if e.fault?.isNone then some e else none

theorem tree?_record (e : Expr) : tree? (some e.toJson) =
    match Expr.ofJson e.toJson with
    | .ok tree => .ok (some tree)
    | .error fault => if fault.isMalformed then .ok none else .error (.record fault) := by
  obtain ⟨member, rest, hmembers⟩ : ∃ member rest, e.toJson = .obj (member :: rest) := by
    cases e <;> exact ⟨_, _, rfl⟩
  rw [hmembers]
  rfl

variable {d : Definition} {registry : Registry} {e : Expr}

/-- A definition can be loaded unless its tree holds an integer that is too large. -/
theorem Follows.toField_cases (hfollows : d.Follows registry e) (htrimmed : e.Trimmed) :
    (e.fault? ≠ some .tooLarge ∧ ∃ f, d.toField = .ok f ∧ d.Loads e f) ∨
      (e.fault? = some .tooLarge ∧ d.toField = .error (.record .tooLarge)) := by
  have hmodels (m : String) :
      m ∈ Collection.sortedSet d.referencedModels ↔ ∃ ref ∈ e.columns, ref.model = m := by
    rw [Collection.mem_sortedSet]
    exact hfollows.mem_models m
  unfold toField
  rw [hfollows.record, tree?_record]
  rcases e.fault?_cases with hnone | hinfinite | hlarge
  · rw [(Expr.ofJson_toJson_eq_ok_iff htrimmed).mpr hnone]
    exact .inl ⟨by simp [hnone], _, rfl, rfl, rfl, rfl, rfl, hmodels, by rw [hnone]; rfl⟩
  · rw [(refused_record htrimmed hinfinite).1]
    exact .inl ⟨by simp [hinfinite], _, rfl, rfl, rfl, rfl, rfl, hmodels, by rw [hinfinite]; rfl⟩
  · rw [(refused_record htrimmed hlarge).1]
    exact .inr ⟨hlarge, rfl⟩

end Definition

/-! ## The check of a loaded field -/

namespace Definition.Loads

variable {d : Definition} {e : Expr} {f : DerivedField}

theorem referencedModels_isEmpty (hloads : d.Loads e f) : f.referencedModels.isEmpty = true ↔ e.columns = [] := by
  rw [List.isEmpty_iff]
  constructor
  · intro hempty
    rw [List.eq_nil_iff_forall_not_mem]
    intro ref href
    have hmem := (hloads.mem_models ref.model).mpr ⟨ref, href, rfl⟩
    rw [hempty] at hmem
    cases hmem
  · intro hempty
    rw [List.eq_nil_iff_forall_not_mem]
    intro m hm
    obtain ⟨ref, href, -⟩ := (hloads.mem_models m).mp hm
    rw [hempty] at href
    cases href

/-- A loaded field depends on the models of its tree, if there are any. -/
theorem mem_effectiveModels (hloads : d.Loads e f) (hsome : e.columns ≠ []) {m : String} :
    m ∈ f.effectiveModels ↔ ∃ ref ∈ e.columns, ref.model = m := by
  rw [effectiveModels, if_neg (mt hloads.referencedModels_isEmpty.mp hsome)]
  exact hloads.mem_models m

/-- A field whose text has no references depends on no models. -/
theorem effectiveModels_eq_nil (hloads : d.Loads e f) (hparse : Expr.parse (some d.expression) = .ok e)
    (hempty : e.columns = []) : f.effectiveModels = [] := by
  rw [effectiveModels, if_pos (hloads.referencedModels_isEmpty.mpr hempty), hloads.expression_eq, hparse]
  dsimp only
  rw [Expr.models, hempty]
  rfl

/-- The check of a loaded field agrees with its tree on a selection, unless the tree has no references and
the text has one that is not selected. -/
theorem reconciled_agrees_iff (hloads : d.Loads e f) (selected : List String) :
    ((f.reconciled selected).isStale = true ↔ ∃ ref ∈ e.columns, ref.model ∉ selected) ↔
      (e.columns = [] → ∀ m ∈ f.effectiveModels, m ∈ selected) := by
  rw [isStale_reconciled]
  by_cases hempty : e.columns = []
  · simp [hempty]
  · have hsame : (∃ m ∈ f.effectiveModels, m ∉ selected) ↔ ∃ ref ∈ e.columns, ref.model ∉ selected := by
      simp only [hloads.mem_effectiveModels hempty]
      constructor
      · rintro ⟨_, ⟨ref, href, rfl⟩, hmissing⟩
        exact ⟨ref, href, hmissing⟩
      · rintro ⟨ref, href, hmissing⟩
        exact ⟨ref.model, ⟨ref, href, rfl⟩, hmissing⟩
    simp [hsame, hempty]

/-! ## The check of a derived column -/

/-- A loaded field becomes a derived column exactly when its tree was read back. -/
theorem derivedColumns_eq (hloads : d.Loads e f) (htrimmed : e.Trimmed) :
    (e.fault? = none ∧ ∃ column, Query.derivedColumns [f] = .ok [column] ∧ column.Of f e) ∨
      (e.fault? ≠ none ∧ Query.derivedColumns [f] = .ok []) := by
  have hshown : (f.visible && !f.isStale) = true := by
    rw [isStale, hloads.visible, hloads.status]
    rfl
  unfold Query.derivedColumns
  simp only [List.filterMap_cons, List.filterMap_nil, hshown, if_true, hloads.tree_eq]
  cases hfault : e.fault? with
  | none =>
    obtain ⟨column, hcolumn, hof⟩ := @Query.derivedColumn_of_written f e htrimmed hfault
    refine .inl ⟨rfl, column, ?_, hof⟩
    rw [Option.isNone_none, if_pos rfl, Option.map_some]
    rw [List.mapM_cons, hcolumn]
    rfl
  | some fault => exact .inr ⟨by simp, rfl⟩

/-- The check of a derived column says whether its tree refers to a model outside the selection. -/
theorem mem_staleIds_iff (hloads : d.Loads e f) {column : Query.DerivedColumn} (hof : column.Of f e)
    (selected : List String) :
    d.id ∈ Query.staleIds selected [column] ↔ ∃ ref ∈ e.columns, ref.model ∉ selected := by
  have hstale : (!(column.referencedModels ++ column.tree.columns.map (·.model)).all selected.contains) = true ↔
      ∃ ref ∈ e.columns, ref.model ∉ selected := by
    rw [Bool.not_eq_true', ← Bool.not_eq_true, List.all_eq_true, List.forall_mem_append,
      hof.referencedModels_eq, hof.tree_eq]
    simp [hloads.mem_models]
  have hid : column.id = d.id := hof.id_eq.trans hloads.id_eq
  rw [Query.staleIds, List.mem_map]
  constructor
  · rintro ⟨_, hmem, -⟩
    obtain ⟨hsame, hmissing⟩ := List.mem_filter.mp hmem
    cases List.mem_singleton.mp hsame
    exact hstale.mp hmissing
  · intro hmissing
    exact ⟨column, List.mem_filter.mpr ⟨List.mem_singleton_self column, hstale.mpr hmissing⟩, hid⟩

end Definition.Loads

/-! ## Saved fields -/

namespace History

theorem Explains.trimmed {registry : Registry} {h : History} {d : Definition} {e : Expr}
    (hexplains : h.Explains registry d e) : e.Trimmed := by
  obtain ⟨supplied, -, hdenotes⟩ := hexplains.denotes
  cases supplied with
  | none => exact Expr.trimmed_of_parse hdenotes
  | some j => exact Expr.trimmed_of_ofJson hdenotes

theorem run_create {registry : Registry} {draft : Draft} (createdBy : String) (now : Calendar.Moment) {e : Expr}
    (hplaced : draft.Placed) (hdenotes : Denotes draft.expression draft.expressionAst e)
    (hknown : registry.Knows e) :
    run registry [.create draft createdBy now] =
      ⟨Catalog.empty.insert ((Catalog.empty.drafted draft createdBy now).analyzed (.ofTree e)),
        [(Catalog.empty.nextId, draft.expressionAst)]⟩ := by
  rw [run, List.foldl_cons, step_of_effect (.created hplaced hdenotes hknown)]
  rfl

/-- For each definition after each list of calls, with the tree that explains it: the definition can be
loaded unless its tree holds an integer that is too large.  The check of the loaded field says, for a
selection, whether the tree refers to a model outside of it, exactly if the tree has references or the models
that the field depends on are all selected; the latter holds if no tree was supplied last.  A derived column
is made of the field exactly if the tree has no number that is refused, and the check of the column always
says whether the tree refers to a model outside the selection. -/
theorem staleness_of_saved (registry : Registry) (calls : List Call) :
    ∀ d ∈ (run registry calls).catalog.definitions, ∃ e, (run registry calls).Explains registry d e ∧
      ((∃ f, d.toField = .ok f) ↔ e.fault? ≠ some .tooLarge) ∧
      ∀ f, d.toField = .ok f →
        (∀ selected, ((f.reconciled selected).isStale = true ↔ ∃ ref ∈ e.columns, ref.model ∉ selected) ↔
          (e.columns = [] → ∀ m ∈ f.effectiveModels, m ∈ selected)) ∧
        ((run registry calls).supplied.lookup d.id = some none → e.columns = [] → f.effectiveModels = []) ∧
        ((∃ column, Query.derivedColumns [f] = .ok [column]) ↔ e.fault? = none) ∧
        ∀ column, Query.derivedColumns [f] = .ok [column] → ∀ selected,
          (d.id ∈ Query.staleIds selected [column] ↔ ∃ ref ∈ e.columns, ref.model ∉ selected) := by
  intro d hd
  obtain ⟨e, hexplains⟩ := (run_sound registry calls).explained d hd
  have htrimmed := hexplains.trimmed
  obtain ⟨supplied, hlast, hdenotes⟩ := hexplains.denotes
  refine ⟨e, hexplains, ?_⟩
  rcases hexplains.follows.toField_cases htrimmed with ⟨hfits, f, hfield, hloads⟩ | ⟨hlarge, hfails⟩
  · refine ⟨⟨fun _ => hfits, fun _ => ⟨f, hfield⟩⟩, fun f' hfield' => ?_⟩
    cases Except.ok.inj (hfield.symm.trans hfield')
    refine ⟨hloads.reconciled_agrees_iff, ?_, ?_⟩
    · intro hnone
      cases Option.some.inj (hlast.symm.trans hnone)
      exact hloads.effectiveModels_eq_nil hdenotes
    · rcases hloads.derivedColumns_eq htrimmed with ⟨hfault, column, hcolumn, hof⟩ | ⟨hfault, hcolumns⟩
      · refine ⟨⟨fun _ => hfault, fun _ => ⟨column, hcolumn⟩⟩, fun column' hcolumn' => ?_⟩
        cases Except.ok.inj (hcolumn.symm.trans hcolumn')
        exact hloads.mem_staleIds_iff hof
      · simp [hcolumns, hfault]
  · simp [hlarge, hfails]

/-- A definition with the text `1` for which the tree of a column is supplied is stale, by both checks, without
the model of the column. -/
theorem staleness_of_saved_supplied :
    let registry : Registry := ⟨[⟨"a", "a", "a", [⟨"b", "b", .number, none, false, false, ""⟩], [], ""⟩]⟩
    let tree : Expr := .column ⟨"a", "b"⟩
    let draft : Draft := ⟨"One", "1", .row, .workspace, none, some tree.toJson, none, none⟩
    let calls : List Call := [.create draft "system" ⟨⟨2024, 6, 1⟩, 12, 0, 0, 0, none⟩]
    ∃ d f column, (run registry calls).catalog.definitions = [d] ∧ d.toField = .ok f ∧
      Query.derivedColumns [f] = .ok [column] ∧ ∀ selected,
        ((f.reconciled selected).isStale = true ↔ "a" ∉ selected) ∧
        (d.id ∈ Query.staleIds selected [column] ↔ "a" ∉ selected) := by
  intro registry tree draft calls
  have hrecord : Expr.ofJson tree.toJson = .ok tree := rfl
  have hknown : registry.Knows tree := List.forall_mem_singleton.mpr ⟨rfl, rfl⟩
  have hplaced : draft.Placed := Draft.placed_of_workspace rfl
  have hrun := @run_create registry draft "system" ⟨⟨2024, 6, 1⟩, 12, 0, 0, 0, none⟩ tree hplaced hrecord hknown
  obtain ⟨d, hd, hid⟩ : ∃ d, (run registry calls).catalog.definitions = [d] ∧ d.id = Catalog.empty.nextId := by
    rw [hrun]
    exact ⟨_, rfl, rfl⟩
  obtain ⟨e, hexplains, hloaded, hchecks⟩ :=
    staleness_of_saved registry calls d (by rw [hd]; exact List.mem_singleton_self d)
  obtain rfl : tree = e := by
    obtain ⟨supplied, hlast, hdenotes⟩ := hexplains.denotes
    rw [hrun, List.lookup_cons, hid, beq_self_eq_true] at hlast
    cases hlast
    exact Except.ok.inj (hrecord.symm.trans hdenotes)
  have hfault : tree.fault? = none := rfl
  obtain ⟨f, hfield⟩ := hloaded.mpr (by simp [hfault])
  obtain ⟨hfield_check, -, hcolumn, hcolumn_check⟩ := hchecks f hfield
  obtain ⟨column, hcolumn⟩ := hcolumn.mpr hfault
  have houtside (selected : List String) : (∃ ref ∈ tree.columns, ref.model ∉ selected) ↔ "a" ∉ selected := by
    simp [tree, Expr.columns]
  refine ⟨d, f, column, hd, hfield, hcolumn, fun selected => ?_⟩
  rw [← houtside]
  refine ⟨(hfield_check selected).mpr fun hempty => ?_, hcolumn_check column hcolumn selected⟩
  cases hempty

/-- A definition is created with the text `orders.total` and the tree of the number 1.  The tree refers to no
model, and neither does its derived column, and yet the loaded field is stale without the model `orders`. -/
theorem stale_without_references :
    let tree : Expr := .literal (.int 1)
    let draft : Draft := ⟨"One", "orders.total", .row, .workspace, none, some tree.toJson, none, none⟩
    let calls : List Call := [.create draft "system" ⟨⟨2024, 6, 1⟩, 12, 0, 0, 0, none⟩]
    ∃ d f column, (run ⟨[]⟩ calls).catalog.definitions = [d] ∧ d.Follows ⟨[]⟩ tree ∧ tree.columns = [] ∧
      d.toField = .ok f ∧ (f.reconciled ["refunds"]).isStale = true ∧
      Query.derivedColumns [f] = .ok [column] ∧ d.id ∉ Query.staleIds ["refunds"] [column] := by
  intro tree draft calls
  have hfault : tree.fault? = none := by
    have hone : (Decimal.ofInt 1).isInf = false := by decide +kernel
    rw [Expr.fault?_eq_none_iff]
    exact List.forall_mem_singleton.mpr (by rw [Literal.fault?, hone]; rfl)
  have htrimmed : tree.Trimmed := List.forall_mem_nil _
  have hrecord := (Expr.ofJson_toJson_eq_ok_iff htrimmed).mpr hfault
  have hknown : Registry.Knows ⟨[]⟩ tree := List.forall_mem_nil _
  have hplaced : draft.Placed := Draft.placed_of_workspace rfl
  have hrun := @run_create ⟨[]⟩ draft "system" ⟨⟨2024, 6, 1⟩, 12, 0, 0, 0, none⟩ tree hplaced hrecord hknown
  have hfollows := Definition.follows_analyzed
    (Catalog.empty.drafted draft "system" ⟨⟨2024, 6, 1⟩, 12, 0, 0, 0, none⟩) hknown
  obtain ⟨-, f, hfield, hloads⟩ | ⟨hlarge, -⟩ := hfollows.toField_cases htrimmed
  · obtain ⟨-, column, hcolumn, hof⟩ | ⟨hsome, -⟩ := hloads.derivedColumns_eq htrimmed
    · refine ⟨_, f, column, by rw [hrun]; rfl, hfollows, rfl, hfield, ?_, hcolumn, ?_⟩
      · have hscan : Token.scan "orders.total" =
            .ok [⟨.reference, "orders.total".toList, 0⟩, ⟨.ending, [], 12⟩] := rfl
        have hparse : Expr.parse (some f.expression) =
            .ok (.column (Token.fieldRef ⟨.reference, "orders.total".toList, 0⟩)) := by
          rw [hloads.expression_eq]
          exact (Expr.parse_eq_ok_iff hscan).mpr (.term (.factor (.primary (.reference rfl))))
        have horders : f.effectiveModels = ["orders"] := by
          rw [effectiveModels, if_pos (hloads.referencedModels_isEmpty.mpr rfl), hparse]
          rfl
        rw [isStale_reconciled, horders]
        exact ⟨"orders", List.mem_singleton_self _, by decide⟩
      · rw [hloads.mem_staleIds_iff hof]
        rintro ⟨ref, href, -⟩
        cases href
    · exact absurd hfault hsome
  · rw [hfault] at hlarge
    cases hlarge

end History

end AdhocReport.DerivedField
