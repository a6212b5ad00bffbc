import AdhocReport.Query.Compilation
import AdhocReport.Proofs.Outcome
import AdhocReport.Proofs.Query.JoinPlan
import AdhocReport.Proofs.Sql.Source
import Mathlib.Tactic.FinCases
set_option autoImplicit false

/-!
# The source that joins a selection

Taking the steps of a plan turns every join into exactly one equality: an equality of the source where
it attached a model, and a condition on rows where it closed a cycle.  So a connected selection has a
source that holds each of its models once and uses each of its joins once, and a selection that is not
connected is refused.
-/

namespace AdhocReport.Query

open AdhocReport.Sql AdhocReport.Join AdhocReport.Collection
open Outcome (bind_eq_ok mapM_eq_ok)

variable {t : Target} {s : Scope}

/-! ## Scopes -/

theorem Target.table_fst {m : String} {p : String × Schema.Table} (h : t.table m = .ok p) : p.1 = m := by
  unfold Target.table at h
  split at h
  · cases h
  · split at h
    · cases h
    · cases h
      rfl

theorem Target.tables_of_scope {models : List String} (h : t.scope models = .ok s) :
    s.registry = t.registry ∧ List.Forall₂ (fun m p => t.table m = .ok p) models s.tables := by
  obtain ⟨tables, htables, hs⟩ := bind_eq_ok.mp h
  cases hs
  exact ⟨rfl, mapM_eq_ok.mp htables⟩

/-- The tables of a selection by model: each selected model has the table of its name. -/
theorem Scope.lookup_tables {models : List String} (h : t.scope models = .ok s) (m : String)
    (table : Schema.Table) :
    s.tables.lookup m = some table ↔ m ∈ models ∧ t.table m = .ok (m, table) := by
  have htables := (Target.tables_of_scope h).2
  clear h
  generalize s.tables = tables at htables ⊢
  induction htables with
  | nil => simp
  | @cons n p models tables hp _ ih =>
    obtain ⟨n', found⟩ := p
    obtain rfl : n' = n := t.table_fst hp
    rw [List.lookup_cons]
    by_cases hm : m = n'
    · subst hm
      simp [hp]
    · have hbeq : (m == n') = false := by simpa using hm
      simp [hbeq, hm, ih]

/-- The tables of a selection begin with that of its first model. -/
theorem Scope.head_tables {models : List String} {first : String} (hfirst : models.head? = some first)
    (h : t.scope models = .ok s) : ∃ table rest, s.tables = (first, table) :: rest := by
  obtain ⟨others, rfl⟩ := List.head?_eq_some_iff.mp hfirst
  obtain ⟨⟨m, table⟩, rest, hp, -, htables⟩ :=
    List.forall₂_cons_left_iff.mp (Target.tables_of_scope h).2
  obtain rfl : m = first := t.table_fst hp
  exact ⟨table, rest, htables⟩

theorem Scope.locate_eq_ok {ref : FieldRef} {found : Located} (h : s.locate ref = .ok found) :
    found.column.model = ref.model ∧ ∃ table, s.tables.lookup ref.model = some table := by
  unfold Scope.locate at h
  split at h
  · cases h
  · rename_i table hlookup
    split at h
    · cases h
    · split at h
      · cases h
      · cases h
        exact ⟨rfl, table, hlookup⟩

/-- An equality is one of the two models of its join, which both have tables. -/
theorem Scope.equality_eq_ok {j : Join.Condition} {e : Equality} (h : s.equality j = .ok e) :
    e.left.model = j.left.model ∧ e.right.model = j.right.model ∧
      (∃ table, s.tables.lookup j.left.model = some table) ∧
      ∃ table, s.tables.lookup j.right.model = some table := by
  obtain ⟨l, hl, h⟩ := bind_eq_ok.mp h
  obtain ⟨r, hr, h⟩ := bind_eq_ok.mp h
  cases h
  obtain ⟨hlm, hlt⟩ := Scope.locate_eq_ok hl
  obtain ⟨hrm, hrt⟩ := Scope.locate_eq_ok hr
  exact ⟨hlm, hrm, hlt, hrt⟩

/-! ## Attaching a table -/

/-- How a statement joins the tables of a join: right joins are written as left ones. -/
def joinKind : Join.Kind → JoinKind
  | .inner => .inner
  | .left => .left
  | .right => .left
  | .full => .full

/-- The new table is the right side of its join, unless a left join keeps its rows. -/
theorem attach_cases (source : Source) (j : Join.Condition) (model : String) (table : Schema.Table)
    (on : Equality) :
    attach source j model table on = .join (joinKind j.kind) source (.table model table) on ∨
      (joinKind j.kind = .left ∧
        attach source j model table on = .join .left (.table model table) source on) := by
  unfold attach
  cases j.kind with
  | inner => exact .inl rfl
  | full => exact .inl rfl
  | left =>
    dsimp only
    split
    · exact .inr ⟨rfl, rfl⟩
    · exact .inl rfl
  | right =>
    dsimp only
    split
    · exact .inr ⟨rfl, rfl⟩
    · exact .inl rfl

variable {source : Source} {j : Join.Condition} {model : String} {table : Schema.Table} {on : Equality}

theorem models_attach : (attach source j model table on).models.Perm (source.models ++ [model]) := by
  rcases attach_cases source j model table on with h | ⟨-, h⟩
  · rw [h]
    exact .refl _
  · rw [h]
    exact List.perm_append_comm

theorem equalities_attach : (attach source j model table on).equalities = source.equalities ++ [on] := by
  rcases attach_cases source j model table on with h | ⟨-, h⟩ <;> simp [h, Source.equalities]

theorem kinds_attach : (attach source j model table on).kinds = source.kinds ++ [joinKind j.kind] := by
  rcases attach_cases source j model table on with h | ⟨hkind, h⟩
  · simp [h, Source.kinds]
  · simp [h, hkind, Source.kinds]

theorem tables_attach :
    (attach source j model table on).tables.Perm ((model, table) :: source.tables) := by
  rcases attach_cases source j model table on with h | ⟨-, h⟩
  · rw [h]
    exact List.perm_append_singleton ..
  · rw [h]
    exact .refl _

theorem grown_attach (hgrown : source.Grown) (hmodel : model ∉ source.models)
    (hrelates : on.Relates model source.models) : (attach source j model table on).Grown := by
  rcases attach_cases source j model table on with h | ⟨-, h⟩
  · rw [h]
    exact .right hgrown hmodel hrelates
  · rw [h]
    exact .left hgrown hmodel hrelates

/-! ## Taking steps -/

/-- Equalities are those of joins, one by one. -/
def Scope.Writes (s : Scope) : List Join.Condition → List Equality → Prop :=
  List.Forall₂ fun j e => s.equality j = .ok e

theorem Scope.Writes.concat {js : List Join.Condition} {es : List Equality} {e : Equality}
    (h : s.Writes js es) (he : s.equality j = .ok e) : s.Writes (js ++ [j]) (es ++ [e]) :=
  List.rel_append h (.cons he .nil)

/-- What the steps taken so far have built: the source joins the models reached, and each join taken is
an equality of the source, with the kind of the join, or a condition. -/
structure Builds (s : Scope) (joined : List String) (acc : Joined) (on closing : List Join.Condition) :
    Prop where
  models : acc.source.models.Perm joined
  grown : acc.source.Grown
  tables : ∀ p ∈ acc.source.tables, s.tables.lookup p.1 = some p.2
  attached : s.Writes on acc.source.equalities
  kinds : acc.source.kinds = on.map fun j => joinKind j.kind
  closed : s.Writes closing acc.conditions

variable {joined final : List String} {acc : Joined} {taken closing : List Join.Condition}
  {step : JoinStep} {steps : List JoinStep} {e : Equality}

theorem Builds.close (h : Builds s joined acc taken closing) (he : s.equality j = .ok e) :
    ∃ acc', s.takeStep acc (.close j) = .ok acc' ∧ Builds s joined acc' taken (closing ++ [j]) := by
  refine ⟨⟨acc.source, acc.conditions ++ [e]⟩, ?_, { h with closed := h.closed.concat he }⟩
  simp [Scope.takeStep, JoinStep.join, he, bind, Except.bind]

theorem Builds.attach (h : Builds s joined acc taken closing) (he : s.equality j = .ok e)
    (htable : s.tables.lookup model = some table) (hmodel : model ∉ joined)
    (hrelates : e.Relates model joined) :
    ∃ acc', s.takeStep acc (.attach j model) = .ok acc' ∧
      Builds s (joined ++ [model]) acc' (taken ++ [j]) closing := by
  refine ⟨⟨Query.attach acc.source j model table e, acc.conditions⟩, ?_, ?_, ?_, ?_, ?_, ?_, h.closed⟩
  · simp [Scope.takeStep, JoinStep.join, he, htable, bind, Except.bind]
  · exact models_attach.trans (h.models.append_right _)
  · exact grown_attach h.grown (fun hm => hmodel (h.models.subset hm)) (hrelates.of_perm h.models.symm)
  · intro p hp
    rcases List.mem_cons.mp (tables_attach.subset hp) with rfl | hp
    · exact htable
    · exact h.tables p hp
  · rw [equalities_attach]
    exact h.attached.concat he
  · rw [kinds_attach, h.kinds, List.map_append]
    rfl

/-- A step whose fields are known succeeds and uses its join once. -/
theorem Builds.takeStep (h : Builds s joined acc taken closing) (hstep : stepOf joined j = some step)
    (he : s.equality j = .ok e) :
    ∃ acc' taken' closing', s.takeStep acc step = .ok acc' ∧
      Builds s (step.after joined) acc' taken' closing' ∧
      (taken' ++ closing').Perm (taken ++ closing ++ [j]) := by
  obtain ⟨hleft, hright, ⟨lt, hlt⟩, ⟨rt, hrt⟩⟩ := Scope.equality_eq_ok he
  rcases stepOf_eq_some hstep with ⟨rfl, -, -⟩ | ⟨rfl, hl, hr⟩ | ⟨rfl, hl, hr⟩
  · obtain ⟨acc', hacc, hbuilds⟩ := h.close he
    refine ⟨acc', taken, closing ++ [j], hacc, ?_, by rw [List.append_assoc]⟩
    simpa [JoinStep.after, JoinStep.model?] using hbuilds
  · obtain ⟨acc', hacc, hbuilds⟩ := h.attach he hrt hr (.inr ⟨hright, by rwa [hleft]⟩)
    refine ⟨acc', taken ++ [j], closing, hacc, hbuilds, ?_⟩
    rw [List.append_assoc, List.append_assoc]
    exact List.perm_append_comm.append_left taken
  · obtain ⟨acc', hacc, hbuilds⟩ := h.attach he hlt hl (.inl ⟨hleft, by rwa [hright]⟩)
    refine ⟨acc', taken ++ [j], closing, hacc, hbuilds, ?_⟩
    rw [List.append_assoc, List.append_assoc]
    exact List.perm_append_comm.append_left taken

/-- Steps whose fields are known succeed and use each of their joins once. -/
theorem Builds.takeSteps (hpath : Path joined steps final) (h : Builds s joined acc taken closing)
    (hfields : ∀ j ∈ steps.map JoinStep.join, ∃ e, s.equality j = .ok e) :
    ∃ acc' taken' closing', steps.foldlM s.takeStep acc = .ok acc' ∧
      Builds s final acc' taken' closing' ∧
      (taken' ++ closing').Perm (taken ++ closing ++ steps.map JoinStep.join) := by
  induction hpath generalizing acc taken closing with
  | done => exact ⟨acc, taken, closing, rfl, h, by simp⟩
  | @step _ _ j step steps hstep _ ih =>
    have hjoin := join_of_stepOf hstep
    obtain ⟨e, he⟩ := hfields j (by simp [hjoin])
    obtain ⟨acc₁, taken₁, closing₁, hacc₁, hbuilds₁, hperm₁⟩ := h.takeStep hstep he
    obtain ⟨acc₂, taken₂, closing₂, hacc₂, hbuilds₂, hperm₂⟩ :=
      ih hbuilds₁ fun k hk => hfields k (List.mem_cons_of_mem _ hk)
    refine ⟨acc₂, taken₂, closing₂, ?_, hbuilds₂, ?_⟩
    · rw [List.foldlM_cons, hacc₁]
      exact hacc₂
    · refine hperm₂.trans ((hperm₁.append_right _).trans ?_)
      simp [hjoin]

/-! ## Joining a selection -/

variable {models : List String} {joins : List Join.Condition} {first : String}

theorem isConnected_iff (hfirst : models.head? = some first) {pairs : List (String × String)} :
    (Join.analyze models pairs).isConnected = true ↔ ∀ m ∈ models, Linked models pairs first m := by
  simp only [Join.Analysis.isConnected, List.isEmpty_iff, List.eq_nil_iff_forall_not_mem,
    mem_disconnected hfirst, not_and, not_not]

theorem Scope.join_of_disconnected (hfirst : models.head? = some first)
    (h : ¬ ∀ m ∈ models, Linked models (joins.map Join.Condition.models) first m) :
    s.join models joins = .error (.report (.query (.disconnected
      (Join.analyze models (joins.map Join.Condition.models)).disconnected))) := by
  have hanalysis := (isConnected_iff hfirst).not.mpr h
  unfold Scope.join
  rw [Bool.not_eq_true] at hanalysis
  simp [hanalysis, faulty]

/-- A connected selection is joined, each model once and by each join once. -/
theorem Scope.join_of_connected (hfirst : models.head? = some first) (hscope : t.scope models = .ok s)
    (hfields : ∀ j ∈ usableJoins models joins, ∃ e, s.equality j = .ok e)
    (hlinked : ∀ m ∈ models, Linked models (joins.map Join.Condition.models) first m) :
    ∃ acc taken closing, s.join models joins = .ok acc ∧
      Builds s (distinct models) acc taken closing ∧ (taken ++ closing).Perm (usableJoins models joins) := by
  obtain ⟨table, rest, htables⟩ := Scope.head_tables hfirst hscope
  have hstart : Builds s [first] ⟨.table first table, []⟩ [] [] :=
    ⟨.refl _, .table first table, by simp [Source.tables, htables], .nil, rfl, .nil⟩
  obtain ⟨final, hpath, hfinal, hplan⟩ := joinPlan_spans hfirst hlinked
  obtain ⟨acc, taken, closing, hacc, hbuilds, hperm⟩ :=
    Builds.takeSteps hpath hstart fun j hj => hfields j (hplan.subset hj)
  refine ⟨acc, taken, closing, ?_, { hbuilds with models := hbuilds.models.trans hfinal }, hperm.trans hplan⟩
  have hanalysis := (isConnected_iff hfirst).mpr hlinked
  simp only [Scope.join, hanalysis, htables, Bool.not_true, Bool.false_eq_true, if_false]
  exact hacc

/-- Joining a selection whose join fields are known is refused exactly when a selected model is not
linked to the first one.  Otherwise the source holds every selected model once, with its table; every
join of it attaches one new model to those joined before; and every join between selected models is used
once, as an equality of the source, with the kind of the join, or as a condition on rows. -/
theorem Scope.join_uses_each_once (hfirst : models.head? = some first) (hscope : t.scope models = .ok s)
    (hfields : ∀ j ∈ usableJoins models joins, ∃ e, s.equality j = .ok e) :
    ((∃ fault, s.join models joins = .error (.report (.query fault))) ↔
      ∃ m ∈ models, ¬ Linked models (joins.map Join.Condition.models) first m) ∧
    ((∀ m ∈ models, Linked models (joins.map Join.Condition.models) first m) →
      ∃ acc on closing, s.join models joins = .ok acc ∧
        acc.source.models.Perm (distinct models) ∧
        (∀ p ∈ acc.source.tables, s.tables.lookup p.1 = some p.2) ∧
        acc.source.equalities.length + 1 = (distinct models).length ∧ acc.source.Grown ∧
        (on ++ closing).Perm (usableJoins models joins) ∧
        s.Writes on acc.source.equalities ∧ acc.source.kinds = (on.map fun j => joinKind j.kind) ∧
        s.Writes closing acc.conditions) := by
  constructor
  · constructor
    · rintro ⟨fault, hfault⟩
      by_contra hnone
      have hlinked : ∀ m ∈ models, Linked models (joins.map Join.Condition.models) first m := by
        intro m hm
        by_contra hm'
        exact hnone ⟨m, hm, hm'⟩
      obtain ⟨acc, _, _, hacc, -⟩ := Scope.join_of_connected hfirst hscope hfields hlinked
      rw [hacc] at hfault
      cases hfault
    · rintro ⟨m, hm, hlinked⟩
      exact ⟨_, Scope.join_of_disconnected hfirst fun hall => hlinked (hall m hm)⟩
  · intro hlinked
    obtain ⟨acc, on, closing, hacc, hbuilds, hperm⟩ :=
      Scope.join_of_connected hfirst hscope hfields hlinked
    refine ⟨acc, on, closing, hacc, hbuilds.models, hbuilds.tables, ?_, hbuilds.grown, hperm,
      hbuilds.attached, hbuilds.kinds, hbuilds.closed⟩
    rw [hbuilds.grown.length_equalities, hbuilds.models.length_eq]

/-- Models that have one field each, an id, with their tables. -/
def Target.keyed (models : List String) : Target :=
  ⟨⟨models.map fun m => ⟨m, m, m, [⟨"id", "Id", .identifier, none, false, true, "INTEGER"⟩], [], ""⟩⟩,
    models.map fun m => ⟨m, none, [⟨"id", "id", "INTEGER", .integer, [], true, false⟩]⟩, .sqlite, none⟩

/-- Of a join that is given twice and finds no side joined at first, one attaches and the other closes a
cycle with the last one; without the join of the first model nothing is joined. -/
theorem join_uses_each_once_cycle :
    let t := Target.keyed ["a", "b", "c"]
    let join (l r : String) (kind : Join.Kind) : Join.Condition := ⟨none, ⟨l, "id"⟩, ⟨r, "id"⟩, kind, none⟩
    let joins := [join "b" "c" .left, join "b" "c" .left, join "a" "b" .right, join "c" "a" .full]
    ∃ s, t.scope ["a", "b", "c"] = .ok s ∧
      (∃ acc on closing, s.join ["a", "b", "c"] joins = .ok acc ∧
        acc.source.models.Perm ["a", "b", "c"] ∧ acc.source.equalities.length = 2 ∧
        (on ++ closing).Perm joins ∧ s.Writes on acc.source.equalities ∧ s.Writes closing acc.conditions) ∧
      ∃ fault, s.join ["a", "b", "c"] [join "b" "c" .left] = .error (.report (.query fault)) := by
  intro t join joins
  obtain ⟨s, hscope⟩ : ∃ s, t.scope ["a", "b", "c"] = .ok s := ⟨_, rfl⟩
  have hequality (l r : String) (kind : Join.Kind) (hl : l ∈ ["a", "b", "c"]) (hr : r ∈ ["a", "b", "c"]) :
      ∃ e, s.equality (join l r kind) = .ok e := by
    cases hscope
    fin_cases hl <;> fin_cases hr <;> exact ⟨_, rfl⟩
  refine ⟨s, hscope, ?_, ?_⟩
  · have hfields : ∀ j ∈ usableJoins ["a", "b", "c"] joins, ∃ e, s.equality j = .ok e := by
      intro j hj
      fin_cases hj <;> exact hequality _ _ _ (by decide) (by decide)
    obtain ⟨acc, on, closing, hacc, hmodels, -, hlength, -, hperm, hon, -, hclosing⟩ :=
      (Scope.join_uses_each_once rfl hscope hfields).2 ((isConnected_iff rfl).mp (by decide))
    exact ⟨acc, on, closing, hacc, hmodels, Nat.succ.inj hlength, hperm, hon, hclosing⟩
  · have hfields : ∀ j ∈ usableJoins ["a", "b", "c"] [join "b" "c" .left], ∃ e, s.equality j = .ok e := by
      intro j hj
      fin_cases hj
      exact hequality _ _ _ (by decide) (by decide)
    refine (Scope.join_uses_each_once rfl hscope hfields).1.mpr ⟨"c", by decide, ?_⟩
    exact ((mem_disconnected rfl).mp (by decide)).2

end AdhocReport.Query
