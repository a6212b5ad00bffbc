import AdhocReport.Proofs.Query.JoinedRows
import AdhocReport.Proofs.Query.Mirror
import AdhocReport.Proofs.Sql.OuterJoin
set_option autoImplicit false

/-!
# The rows of joins that are turned around

Joins that are turned around attach the same tables in the same way, over equalities with their sides swapped,
and so the rows of a selection stay the same.  For two models they are those of the first join between them,
as it is written, whichever of the models is selected first.
-/

namespace AdhocReport.Join

/-- The unmatched records of the left side are kept. -/
def Kind.keepsLeft : Kind → Bool
  | .left => true
  | .full => true
  | _ => false

/-- The unmatched records of the right side are kept. -/
def Kind.keepsRight : Kind → Bool
  | .right => true
  | .full => true
  | _ => false

end AdhocReport.Join

namespace AdhocReport.Query

open AdhocReport.Sql AdhocReport.Join AdhocReport.Collection
open Outcome (bind_eq_ok)

variable {joins joins' : List Join.Condition} {j j' : Join.Condition}

/-! ## Sources -/

variable {s : Scope} {e e' : Equality}

theorem Scope.equality_mirror (h : s.equality j = .ok e) : s.equality j.mirror = .ok e.swap := by
  obtain ⟨l, hl, h⟩ := bind_eq_ok.mp h
  obtain ⟨r, hr, h⟩ := bind_eq_ok.mp h
  cases h
  exact bind_eq_ok.mpr ⟨r, hr, bind_eq_ok.mpr ⟨l, hl, rfl⟩⟩

theorem Scope.exists_equality_turned (h : j.Turned j') (he : s.equality j = .ok e) :
    ∃ e', s.equality j' = .ok e' ∧ ∀ r, e'.holds r = e.holds r := by
  rcases h with rfl | rfl
  · exact ⟨e, he, fun r => rfl⟩
  · exact ⟨e.swap, s.equality_mirror he, e.holds_swap⟩

theorem Scope.satisfies_turned (h : j.Turned j') {r : Sql.Row} (hsatisfies : s.Satisfies j r) :
    s.Satisfies j' r := by
  unfold Scope.Satisfies at hsatisfies
  split at hsatisfies
  · rename_i e he
    obtain ⟨e', he', hsame⟩ := s.exists_equality_turned h he
    rw [Scope.satisfies_of_equality he', hsame, Equality.holds_iff_matches]
    exact hsatisfies
  · cases hsatisfies

/-- A join that is read from the other side attaches a table in the same way. -/
theorem attach_mirror (source : Source) (j : Join.Condition) (m : String) (table : Schema.Table)
    (on : Equality) : attach source j.mirror m table on = attach source j m table on := by
  obtain ⟨id, l, r, kind, description⟩ := j
  cases kind <;> rfl

theorem attach_turned (source : Source) (h : j.Turned j') (m : String) (table : Schema.Table) (on : Equality) :
    attach source j' m table on = attach source j m table on := by
  rcases h with rfl | rfl
  · rfl
  · exact attach_mirror ..

theorem attach_alike {source source' : Source} (hsource : source.Alike source') (j : Join.Condition)
    (m : String) (table : Schema.Table) (hsame : ∀ r, e'.holds r = e.holds r) :
    (attach source j m table e).Alike (attach source' j m table e') := by
  have hnew := Source.Alike.table m table
  unfold attach
  dsimp only
  cases j.kind with
  | inner => exact .join hsource hnew hsame
  | full => exact .join hsource hnew hsame
  | left =>
    dsimp only
    split
    · exact .join hnew hsource hsame
    · exact .join hsource hnew hsame
  | right =>
    dsimp only
    split
    · exact .join hnew hsource hsame
    · exact .join hsource hnew hsame

/-! ## Taking steps -/

theorem takeStep_close {acc done : Joined} :
    s.takeStep acc (.close j) = .ok done ↔
      ∃ e, s.equality j = .ok e ∧ done = ⟨acc.source, acc.conditions ++ [e]⟩ := by
  rw [Scope.takeStep, bind_eq_ok]
  refine exists_congr fun e => and_congr_right fun _ => ?_
  rw [Except.ok.injEq, eq_comm]

theorem takeStep_attach {acc done : Joined} {m : String} :
    s.takeStep acc (.attach j m) = .ok done ↔ ∃ e table, s.equality j = .ok e ∧
      s.tables.lookup m = some table ∧ done = ⟨attach acc.source j m table e, acc.conditions⟩ := by
  rw [Scope.takeStep, bind_eq_ok]
  refine exists_congr fun e => ?_
  rw [exists_and_left]
  refine and_congr_right fun _ => ?_
  dsimp only
  cases s.tables.lookup m with
  | none => simp [faulty]
  | some table => simp [eq_comm]

/-- What steps that succeed have built: the source is that of the attaching ones, and the conditions are those
of the others. -/
theorem takeSteps_split {steps : List JoinStep} {acc done : Joined}
    (h : steps.foldlM s.takeStep acc = .ok done) (conditions : List Equality) :
    (attaches steps).foldlM s.takeStep ⟨acc.source, conditions⟩ = .ok ⟨done.source, conditions⟩ ∧
      ∃ es, done.conditions = acc.conditions ++ es ∧ s.Writes (closings steps) es := by
  induction steps generalizing acc with
  | nil =>
    cases h
    exact ⟨rfl, [], (List.append_nil _).symm, .nil⟩
  | cons step steps ih =>
    rw [List.foldlM_cons, bind_eq_ok] at h
    obtain ⟨next, hnext, h⟩ := h
    cases step with
    | close j =>
      obtain ⟨e, he, rfl⟩ := takeStep_close.mp hnext
      obtain ⟨hsource, es, hes, hwrites⟩ := ih h
      refine ⟨hsource, e :: es, ?_, .cons he hwrites⟩
      rw [hes, List.append_assoc, List.singleton_append]
    | attach j m =>
      obtain ⟨e, table, he, htable, rfl⟩ := takeStep_attach.mp hnext
      obtain ⟨hsource, hconditions⟩ := ih h
      refine ⟨?_, hconditions⟩
      have hstep : s.takeStep ⟨acc.source, conditions⟩ (.attach j m) =
          .ok ⟨attach acc.source j m table e, conditions⟩ := takeStep_attach.mpr ⟨e, table, he, htable, rfl⟩
      calc (attaches (.attach j m :: steps)).foldlM s.takeStep ⟨acc.source, conditions⟩
          = (s.takeStep ⟨acc.source, conditions⟩ (.attach j m) >>= fun next =>
              (attaches steps).foldlM s.takeStep next) := List.foldlM_cons
        _ = .ok ⟨done.source, conditions⟩ := by
          rw [hstep]
          exact hsource

/-- Attaching the same models by joins that were turned around gives sources that are alike. -/
theorem takeSteps_turned {steps steps' : List JoinStep} (h : List.Forall₂ JoinStep.Turned steps steps')
    {source source' : Source} {conditions : List Equality} {done done' : Joined}
    (hsource : source.Alike source') (hdone : steps.foldlM s.takeStep ⟨source, conditions⟩ = .ok done)
    (hdone' : steps'.foldlM s.takeStep ⟨source', conditions⟩ = .ok done') :
    done.source.Alike done'.source := by
  induction h generalizing source source' with
  | nil =>
    cases hdone
    cases hdone'
    exact hsource
  | cons hstep _ ih =>
    obtain ⟨hj, m⟩ := hstep
    rw [List.foldlM_cons, bind_eq_ok] at hdone hdone'
    obtain ⟨next, hnext, hdone⟩ := hdone
    obtain ⟨next', hnext', hdone'⟩ := hdone'
    obtain ⟨e, table, he, htable, rfl⟩ := takeStep_attach.mp hnext
    obtain ⟨e', table', he', htable', rfl⟩ := takeStep_attach.mp hnext'
    obtain rfl : table = table' := Option.some.inj (htable.symm.trans htable')
    obtain ⟨turned, hturned, hsame⟩ := s.exists_equality_turned hj he
    obtain rfl : e' = turned := Except.ok.inj (he'.symm.trans hturned)
    refine ih ?_ hdone hdone'
    rw [attach_turned _ hj]
    exact attach_alike hsource _ m table hsame

/-! ## Joining a selection -/

variable {t : Target} {models : List String} {first : String}

theorem takeSteps_fields {steps : List JoinStep} {acc done : Joined}
    (h : steps.foldlM s.takeStep acc = .ok done) :
    ∀ j ∈ steps.map JoinStep.join, ∃ e, s.equality j = .ok e := by
  induction steps generalizing acc with
  | nil => simp
  | cons step steps ih =>
    rw [List.foldlM_cons, bind_eq_ok] at h
    obtain ⟨next, hnext, h⟩ := h
    obtain ⟨e, he, -⟩ := bind_eq_ok.mp hnext
    intro j hj
    rcases List.mem_cons.mp hj with rfl | hj
    · exact ⟨e, he⟩
    · exact ih h j hj

/-- A selection is joined by taking the steps of its plan, if it is connected. -/
theorem Scope.join_eq_ok {acc : Joined} (hfirst : models.head? = some first) (hscope : t.scope models = .ok s)
    (h : s.join models joins = .ok acc) :
    (∀ m ∈ models, Linked models (joins.map Join.Condition.models) first m) ∧
      ∃ table, s.tables.lookup first = some table ∧
        (joinPlan models joins).foldlM s.takeStep ⟨.table first table, []⟩ = .ok acc := by
  obtain ⟨table, rest, htables⟩ := Scope.head_tables hfirst hscope
  have hconnected : (Join.analyze models (joins.map Join.Condition.models)).isConnected = true := by
    by_contra hdisconnected
    rw [Scope.join_of_disconnected hfirst ((isConnected_iff hfirst).not.mp hdisconnected)] at h
    cases h
  refine ⟨(isConnected_iff hfirst).mp hconnected, table, by simp [htables], ?_⟩
  simpa only [Scope.join, hconnected, htables, Bool.not_true, Bool.false_eq_true, if_false] using h

theorem Scope.exists_join_iff (hfirst : models.head? = some first) (hscope : t.scope models = .ok s) :
    (∃ acc, s.join models joins = .ok acc) ↔
      (∀ m ∈ models, Linked models (joins.map Join.Condition.models) first m) ∧
        ∀ j ∈ usableJoins models joins, ∃ e, s.equality j = .ok e := by
  constructor
  · rintro ⟨acc, hacc⟩
    obtain ⟨hlinked, table, -, hsteps⟩ := Scope.join_eq_ok hfirst hscope hacc
    obtain ⟨-, -, -, hplan⟩ := joinPlan_spans hfirst hlinked
    exact ⟨hlinked, fun j hj => takeSteps_fields hsteps j (hplan.symm.subset hj)⟩
  · rintro ⟨hlinked, hfields⟩
    obtain ⟨acc, -, -, hacc, -⟩ := Scope.join_of_connected hfirst hscope hfields hlinked
    exact ⟨acc, hacc⟩

/-- Without a model nothing is joined. -/
theorem Scope.join_nil (hscope : t.scope [] = .ok s) (joins : List Join.Condition) :
    s.join [] joins = .error (.report (.query (.modelNotInQuery ""))) := by
  have htables : s.tables = [] := List.forall₂_nil_left_iff.mp (Target.tables_of_scope hscope).2
  rw [Scope.join, htables]
  rfl

theorem fields_turned (h : List.Forall₂ Join.Condition.Turned joins joins')
    (hfields : ∀ j ∈ usableJoins models joins, ∃ e, s.equality j = .ok e) :
    ∀ j ∈ usableJoins models joins', ∃ e, s.equality j = .ok e := by
  intro j' hj'
  have hmem : j'.undirected ∈ (usableJoins models joins).map Join.Condition.undirected := by
    rw [map_undirected (usableJoins_turned models h)]
    exact List.mem_map_of_mem hj'
  obtain ⟨j, hj, hsame⟩ := List.mem_map.mp hmem
  obtain ⟨e, he⟩ := hfields j hj
  obtain ⟨e', he', -⟩ := s.exists_equality_turned (Join.Condition.undirected_eq.mp hsame) he
  exact ⟨e', he'⟩

theorem Scope.exists_join_turned (hscope : t.scope models = .ok s)
    (h : List.Forall₂ Join.Condition.Turned joins joins') (hjoins : ∃ acc, s.join models joins = .ok acc) :
    ∃ acc, s.join models joins' = .ok acc := by
  cases hmodels : models.head? with
  | none =>
    obtain rfl := List.head?_eq_none_iff.mp hmodels
    obtain ⟨acc, hacc⟩ := hjoins
    rw [Scope.join_nil hscope] at hacc
    cases hacc
  | some first =>
    obtain ⟨hlinked, hfields⟩ := (Scope.exists_join_iff hmodels hscope).mp hjoins
    rw [← linked_turned h] at hlinked
    exact (Scope.exists_join_iff hmodels hscope).mpr ⟨hlinked, fields_turned h hfields⟩

/-- A join that is refused with known fields is refused because some selected models are not connected. -/
theorem Scope.join_eq_error (hfirst : models.head? = some first) (hscope : t.scope models = .ok s)
    (hfields : ∀ j ∈ usableJoins models joins, ∃ e, s.equality j = .ok e) {f : Failure} :
    s.join models joins = .error f ↔
      ¬(∀ m ∈ models, Linked models (joins.map Join.Condition.models) first m) ∧
        f = .report (.query (.disconnected
          (Join.analyze models (joins.map Join.Condition.models)).disconnected)) := by
  by_cases hlinked : ∀ m ∈ models, Linked models (joins.map Join.Condition.models) first m
  · obtain ⟨acc, -, -, hacc, -⟩ := Scope.join_of_connected hfirst hscope hfields hlinked
    constructor
    · intro h
      rw [hacc] at h
      cases h
    · rintro ⟨hunlinked, -⟩
      exact absurd hlinked hunlinked
  · rw [Scope.join_of_disconnected hfirst hlinked, Except.error.injEq, eq_comm]
    exact (and_iff_right hlinked).symm

/-! ## Rows -/

theorem Joined.rows_congr {acc acc' : Joined} (hsource : acc.source.Alike acc'.source)
    (hconditions : ∀ r, (∀ e ∈ acc.conditions, e.holds r = true) ↔ ∀ e ∈ acc'.conditions, e.holds r = true)
    (content : Content) : acc'.rows content = acc.rows content := by
  rw [Joined.rows, Joined.rows, hsource.rows_eq]
  refine List.filter_congr fun r _ => ?_
  rw [Bool.eq_iff_iff, List.all_eq_true, List.all_eq_true]
  exact (hconditions r).symm

theorem Scope.rows_turned (hscope : t.scope models = .ok s)
    (h : List.Forall₂ Join.Condition.Turned joins joins') {acc acc' : Joined}
    (hacc : s.join models joins = .ok acc) (hacc' : s.join models joins' = .ok acc')
    (content : Content) : acc'.rows content = acc.rows content := by
  cases hfirst : models.head? with
  | none =>
    obtain rfl := List.head?_eq_none_iff.mp hfirst
    rw [Scope.join_nil hscope] at hacc
    cases hacc
  | some first =>
    obtain ⟨hlinked, table, htable, hsteps⟩ := Scope.join_eq_ok hfirst hscope hacc
    obtain ⟨hlinked', table', htable', hsteps'⟩ := Scope.join_eq_ok hfirst hscope hacc'
    obtain rfl : table = table' := Option.some.inj (htable.symm.trans htable')
    obtain ⟨-, -, -, hplan⟩ := joinPlan_spans hfirst hlinked
    obtain ⟨-, -, -, hplan'⟩ := joinPlan_spans hfirst hlinked'
    obtain ⟨hsource, es, hes, hwrites⟩ := takeSteps_split hsteps []
    obtain ⟨hsource', es', hes', hwrites'⟩ := takeSteps_split hsteps' []
    have halike := takeSteps_turned (attaches_turned models h) (.table first table) hsource hsource'
    refine @Joined.rows_congr acc acc' halike (fun r => ?_) content
    rw [hes, hes', List.nil_append, List.nil_append, hwrites.forall_holds, hwrites'.forall_holds]
    constructor
    · intro hall j' hj'
      obtain ⟨j, hj, hturned⟩ := mem_closings_turned (forall₂_turned_symm h) hplan' hplan hj'
      exact s.satisfies_turned hturned.symm (hall j hj)
    · intro hall j hj
      obtain ⟨j', hj', hturned⟩ := mem_closings_turned h hplan hplan' hj
      exact s.satisfies_turned hturned.symm (hall j' hj')

/-! ## Two models -/

/-- The rows of the records of two models, as a join between them is written: the pairs that satisfy it, and
of the sides that it keeps the records that satisfy it with none of the other side. -/
def Scope.writtenRows (s : Scope) (j : Join.Condition) (lefts rights : List Record) : Multiset Sql.Row :=
  (pairs j.left.model j.right.model lefts rights).filter (s.Satisfies j) +
    (if j.kind.keepsLeft then unmatched j.left.model j.right.model (s.Satisfies j) lefts rights else 0) +
    if j.kind.keepsRight then unmatched j.right.model j.left.model (s.Satisfies j) rights lefts else 0

theorem Scope.writtenRows_of_equality {e : Equality} (he : s.equality j = .ok e) (lefts rights : List Record) :
    s.writtenRows j lefts rights =
      (pairs j.left.model j.right.model lefts rights).filter (fun r => e.holds r = true) +
        (if j.kind.keepsLeft then
          unmatched j.left.model j.right.model (fun r => e.holds r = true) lefts rights else 0) +
        if j.kind.keepsRight then
          unmatched j.right.model j.left.model (fun r => e.holds r = true) rights lefts else 0 := by
  have hholds (r : Sql.Row) : s.Satisfies j r ↔ e.holds r = true := Scope.satisfies_of_equality he
  rw [writtenRows, unmatched_congr hholds, unmatched_congr hholds, Multiset.filter_congr fun r _ => hholds r]

/-- Whichever side is there first, attaching the other one gives the rows of the join as it is written. -/
theorem rows_attach_table {e : Equality} (he : s.equality j = .ok e) (hne : j.left.model ≠ j.right.model)
    (lt rt : Schema.Table) (content : Content) :
    ((attach (.table j.left.model lt) j j.right.model rt e).rows content : Multiset Sql.Row) =
        s.writtenRows j (content lt.name) (content rt.name) ∧
      ((attach (.table j.right.model rt) j j.left.model lt e).rows content : Multiset Sql.Row) =
        s.writtenRows j (content lt.name) (content rt.name) := by
  have hl : (j.left.model == j.right.model) = false := beq_eq_false_iff_ne.mpr hne
  have hr : (j.right.model == j.left.model) = false := beq_eq_false_iff_ne.mpr hne.symm
  rw [Scope.writtenRows_of_equality he]
  unfold attach
  cases hkind : j.kind with
  | inner =>
    simp only [Source.rows, Source.models, inner_rows, pairs_comm hne, Kind.keepsLeft, Kind.keepsRight,
      Bool.false_eq_true, if_false, add_zero, and_self]
  | left =>
    simp only [hl, beq_self_eq_true, Bool.false_eq_true, if_true, if_false, Source.rows, Source.models,
      left_rows, Kind.keepsLeft, Kind.keepsRight, add_zero, and_self]
  | right =>
    simp only [hr, beq_self_eq_true, Bool.false_eq_true, if_true, if_false, Source.rows, Source.models,
      left_rows, pairs_comm hne, Kind.keepsLeft, Kind.keepsRight, add_zero, and_self]
  | full =>
    simp only [Source.rows, Source.models, full_rows _ _ hne, full_rows _ _ hne.symm, pairs_comm hne,
      Kind.keepsLeft, Kind.keepsRight, if_true, true_and]
    exact add_right_comm ..

/-- The plan of two models attaches the other one by the first join between them. -/
theorem attaches_two {first other : String} {rest : List Join.Condition}
    (husable : usableJoins [first, other] joins = j :: rest)
    (hstep : stepOf [first] j = some (.attach j other)) :
    attaches (joinPlan [first, other] joins) = [.attach j other] := by
  have hclosed : ∀ k ∈ usableJoins [first, other] joins, isOpen ([first] ++ [other]) k = false := by
    intro k hk
    exact isOpen_eq_false.mpr (mem_usableJoins.mp hk).2
  have hrest : sweep ([first] ++ [other]) rest = ([], [first] ++ [other]) := by
    rw [← sweep_filter (q := fun _ => false) fun k hk _ =>
      hclosed k (by rw [husable]; exact List.mem_cons_of_mem _ hk)]
    simp [sweep]
  have hsweep : sweep [first] (j :: rest) = ([.attach j other], [first] ++ [other]) := by
    rw [sweep_of_attach hstep, hrest]
  have hnone : (j :: rest).filter (isOpen ([first] ++ [other])) = [] := by
    rw [← husable, List.filter_eq_nil_iff]
    intro k hk
    rw [hclosed k hk]
    exact Bool.false_ne_true
  rw [attaches_joinPlan, husable]
  change attachments (rest.length + 1) [first] (j :: rest) = _
  rw [attachments, hsweep, hnone, attachments_idle _ rfl, List.append_nil]

/-- Two models are joined by the first join between them, and the others are conditions on rows. -/
theorem Scope.rows_of_two {first other : String} {rest : List Join.Condition} {acc : Joined}
    (hscope : t.scope [first, other] = .ok s) (husable : usableJoins [first, other] joins = j :: rest)
    (hstep : stepOf [first] j = some (.attach j other)) (hacc : s.join [first, other] joins = .ok acc) :
    ∃ e ft ot, s.equality j = .ok e ∧ s.tables.lookup first = some ft ∧ s.tables.lookup other = some ot ∧
      ∀ content, (acc.rows content : Multiset Sql.Row) =
        ((attach (.table first ft) j other ot e).rows content : Multiset Sql.Row).filter
          fun r => ∀ k ∈ rest, s.Satisfies k r := by
  obtain ⟨hlinked, ft, hft, hsteps⟩ := Scope.join_eq_ok rfl hscope hacc
  obtain ⟨-, -, -, hplan⟩ := joinPlan_spans rfl hlinked
  obtain ⟨hsource, es, hes, hwrites⟩ := takeSteps_split hsteps []
  have hperm := (attaches_append_closings (joinPlan [first, other] joins)).trans hplan
  rw [attaches_two husable hstep] at hsource hperm
  rw [husable] at hperm
  have hclosings : (closings (joinPlan [first, other] joins)).Perm rest := (List.perm_cons j).mp hperm
  obtain ⟨next, hnext, hdone⟩ := bind_eq_ok.mp hsource
  obtain ⟨e, ot, he, hot, rfl⟩ := takeStep_attach.mp hnext
  have hattached : attach (.table first ft) j other ot e = acc.source :=
    congrArg Joined.source (Except.ok.inj hdone)
  refine ⟨e, ft, ot, he, hft, hot, fun content => ?_⟩
  rw [hattached, Joined.rows, Multiset.filter_coe]
  congr 1
  refine List.filter_congr fun r _ => ?_
  rw [Bool.eq_iff_iff, List.all_eq_true, decide_eq_true_eq, hes, List.nil_append, hwrites.forall_holds]
  exact forall_congr' fun k => imp_congr_left hclosings.mem_iff

/-- Any of the joins of a selection may be turned around: a left join becomes a right join and the other way
round, an inner or a full join keeps its kind.  The selection can be joined as before or not, and where the
fields of its joins are known it is refused in the same way; and whatever the tables hold, the source has the
same rows under its conditions.  Of two models the rows are those of the first join between them, as it is
written, under the other joins, whichever of them is selected first. -/
theorem Scope.rows_of_turned_joins (hscope : t.scope models = .ok s)
    (hturned : List.Forall₂ Join.Condition.Turned joins joins') :
    ((∃ acc', s.join models joins' = .ok acc') ↔ ∃ acc, s.join models joins = .ok acc) ∧
    ((∀ j ∈ usableJoins models joins, ∃ e, s.equality j = .ok e) →
      ∀ f, s.join models joins' = .error f ↔ s.join models joins = .error f) ∧
    (∀ acc acc', s.join models joins = .ok acc → s.join models joins' = .ok acc' →
      ∀ content, acc'.rows content = acc.rows content) ∧
    ∀ j rest acc, usableJoins models joins = j :: rest → j.left.model ≠ j.right.model →
      models = [j.left.model, j.right.model] ∨ models = [j.right.model, j.left.model] →
      s.join models joins = .ok acc →
      ∃ lt rt, s.tables.lookup j.left.model = some lt ∧ s.tables.lookup j.right.model = some rt ∧
        ∀ content, (acc.rows content : Multiset Sql.Row) =
          (s.writtenRows j (content lt.name) (content rt.name)).filter
            fun r => ∀ k ∈ rest, s.Satisfies k r := by
  refine ⟨⟨Scope.exists_join_turned hscope (forall₂_turned_symm hturned),
    Scope.exists_join_turned hscope hturned⟩, ?_, fun _ _ => Scope.rows_turned hscope hturned, ?_⟩
  · intro hfields f
    cases hfirst : models.head? with
    | none =>
      obtain rfl := List.head?_eq_none_iff.mp hfirst
      rw [Scope.join_nil hscope, Scope.join_nil hscope]
    | some first =>
      rw [Scope.join_eq_error hfirst hscope hfields,
        Scope.join_eq_error hfirst hscope (fields_turned hturned hfields), linked_turned hturned,
        disconnected_turned hturned hfirst]
  · intro j rest acc husable hne hmodels hacc
    rcases hmodels with rfl | rfl
    · have hstep : stepOf [j.left.model] j = some (.attach j j.right.model) := by
        simp [stepOf, hne.symm]
      obtain ⟨e, lt, rt, he, hlt, hrt, hrows⟩ := Scope.rows_of_two hscope husable hstep hacc
      refine ⟨lt, rt, hlt, hrt, fun content => ?_⟩
      rw [hrows, (rows_attach_table he hne lt rt content).1]
    · have hstep : stepOf [j.right.model] j = some (.attach j j.left.model) := by
        simp [stepOf, hne]
      obtain ⟨e, rt, lt, he, hrt, hlt, hrows⟩ := Scope.rows_of_two hscope husable hstep hacc
      refine ⟨lt, rt, hlt, hrt, fun content => ?_⟩
      rw [hrows, (rows_attach_table he hne lt rt content).2]

/-- Three models in a cycle of a left, a right and a full join, of which the first and the last are turned
around; and two models of a left join, of which the one that it does not preserve is selected first. -/
theorem rows_of_turned_joins_mixed :
    let join (l r : String) (kind : Join.Kind) : Join.Condition := ⟨none, ⟨l, "id"⟩, ⟨r, "id"⟩, kind, none⟩
    let joins := [join "a" "b" .left, join "c" "b" .right, join "a" "c" .full]
    let turned := [join "b" "a" .right, join "c" "b" .right, join "c" "a" .full]
    (∃ s acc acc', (Target.keyed ["a", "b", "c"]).scope ["a", "b", "c"] = .ok s ∧
      s.join ["a", "b", "c"] joins = .ok acc ∧ s.join ["a", "b", "c"] turned = .ok acc' ∧
      ∀ content, acc'.rows content = acc.rows content) ∧
    ∃ s acc lt rt, (Target.keyed ["a", "b"]).scope ["b", "a"] = .ok s ∧
      s.join ["b", "a"] [join "a" "b" .left] = .ok acc ∧
      s.tables.lookup "a" = some lt ∧ s.tables.lookup "b" = some rt ∧
      ∀ content, (acc.rows content : Multiset Sql.Row) =
        s.writtenRows (join "a" "b" .left) (content lt.name) (content rt.name) := by
  intro join joins turned
  constructor
  · obtain ⟨s, hscope⟩ : ∃ s, (Target.keyed ["a", "b", "c"]).scope ["a", "b", "c"] = .ok s := ⟨_, rfl⟩
    have hturned : List.Forall₂ Join.Condition.Turned joins turned :=
      .cons (.inr rfl) (.cons (.inl rfl) (.cons (.inr rfl) .nil))
    obtain ⟨hjoined, -, hrows, -⟩ := Scope.rows_of_turned_joins hscope hturned
    have hfields : ∀ j ∈ usableJoins ["a", "b", "c"] joins, ∃ e, s.equality j = .ok e := by
      cases hscope
      intro j hj
      fin_cases hj <;> exact ⟨_, rfl⟩
    obtain ⟨acc, hacc⟩ : ∃ acc, s.join ["a", "b", "c"] joins = .ok acc :=
      (Scope.exists_join_iff rfl hscope).mpr ⟨(isConnected_iff rfl).mp (by decide), hfields⟩
    obtain ⟨acc', hacc'⟩ := hjoined.mpr ⟨acc, hacc⟩
    exact ⟨s, acc, acc', hscope, hacc, hacc', hrows acc acc' hacc hacc'⟩
  · obtain ⟨s, hscope⟩ : ∃ s, (Target.keyed ["a", "b"]).scope ["b", "a"] = .ok s := ⟨_, rfl⟩
    have hturned : List.Forall₂ Join.Condition.Turned [join "a" "b" .left] [join "a" "b" .left] :=
      .cons (.inl rfl) .nil
    obtain ⟨-, -, -, htwo⟩ := Scope.rows_of_turned_joins hscope hturned
    have hfields : ∀ j ∈ usableJoins ["b", "a"] [join "a" "b" .left], ∃ e, s.equality j = .ok e := by
      cases hscope
      intro j hj
      fin_cases hj
      exact ⟨_, rfl⟩
    obtain ⟨acc, hacc⟩ : ∃ acc, s.join ["b", "a"] [join "a" "b" .left] = .ok acc :=
      (Scope.exists_join_iff rfl hscope).mpr ⟨(isConnected_iff rfl).mp (by decide), hfields⟩
    obtain ⟨lt, rt, hlt, hrt, hrows⟩ := htwo (join "a" "b" .left) [] acc rfl (by decide) (.inr rfl) hacc
    refine ⟨s, acc, lt, rt, hscope, hacc, hlt, hrt, fun content => ?_⟩
    rw [hrows, Multiset.filter_eq_self.mpr]
    simp

end AdhocReport.Query
