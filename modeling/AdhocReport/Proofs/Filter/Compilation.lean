import AdhocReport.Filter.Clause
set_option autoImplicit false

/-!
# Filters: every filter is accounted for

Compiling filters gives one clause or one report for each filter, in filter order, and a report names the
position of its filter.  What a filter gives depends on no other filter: lists of filters that are joined
give what each list gives, with the positions of the second list moved up.  Operators are looked up in
tables by operator and by type; no lookup that is made in compiling fails.
-/

namespace AdhocReport.Filter

open AdhocReport.Schema

/-- Why the filter at a position gives no clause. -/
structure Report where
  position : Nat
  filter : Spec
  fault : ClauseFault
  deriving DecidableEq, Repr

namespace Report

/-- A report as an error. -/
def text (r : Report) : String := r.filter.label r.position ++ ": " ++ r.fault.message

/-- The report of the same filter behind `n` others. -/
def shift (n : Nat) (r : Report) : Report := { r with position := r.position + n }

end Report

/-! ## Tables of operators -/

/-- The operators of each type. -/
def operatorsByType : List (FieldType × List Operator) :=
  [(.string, textOperators), (.identifier, textOperators), (.number, orderedOperators),
    (.currency, orderedOperators), (.percentage, orderedOperators), (.date, orderedOperators),
    (.boolean, truthOperators)]

/-- The symbols of the operators that compare. -/
def comparisonSymbols : List (Operator × String) :=
  [(.compare .eq, "="), (.compare .neq, "<>"), (.compare .gt, ">"), (.compare .gte, ">="),
    (.compare .lt, "<"), (.compare .lte, "<=")]

/-- The phrases of the operators that take no value. -/
def testPhrases : List (Operator × String) :=
  [(.test .isNull, "IS NULL"), (.test .isNotNull, "IS NOT NULL"), (.test .isTrue, "IS TRUE"),
    (.test .isFalse, "IS FALSE")]

/-- The operators that search texts. -/
def searchOperators : List Operator := [.search .contains, .search .startsWith, .search .endsWith]

/-- The search of an operator, which is the last one if it is none of the others. -/
def searchOf (o : Operator) : Search :=
  if o = .search .contains then .contains else if o = .search .startsWith then .startsWith else .endsWith

theorem lookup_operatorsByType (type : FieldType) : operatorsByType.lookup type = some (operatorsFor type) := by
  cases type <;> rfl

theorem lookup_comparisonSymbols (o : Operator) :
    comparisonSymbols.lookup o = o.comparator?.map (·.symbol) := by
  rcases o with c | s | t
  · cases c <;> rfl
  · cases s <;> rfl
  · cases t <;> rfl

theorem lookup_testPhrases (o : Operator) :
    testPhrases.lookup o = match o with
      | .test t => some t.phrase
      | _ => none := by
  rcases o with c | s | t
  · cases c <;> rfl
  · cases s <;> rfl
  · cases t <;> rfl

theorem search_mem_searchOperators (s : Search) : .search s ∈ searchOperators := by
  cases s <;> decide

theorem compare_notMem_searchOperators (c : Comparator) : .compare c ∉ searchOperators := by
  cases c <;> decide

theorem searchOf_search (s : Search) : searchOf (.search s) = s := by
  cases s <;> rfl

/-- The clause or the fault of a filter, with operators looked up in the tables; none if a table has no
entry for what is looked up. -/
def clauseByTables (aliases : List (String × String)) (registry : Registry) (postgres : Bool) (f : Spec) :
    Option (Except ClauseFault String) :=
  match columnOf f.left aliases registry with
  | .error fault => some (.error fault)
  | .ok left =>
    (operatorsByType.lookup left.type).bind fun operators =>
    if f.operator ∉ operators then some (.error (.operatorNotValid left.type))
    else if (testPhrases.lookup f.operator).isSome then
      (testPhrases.lookup f.operator).map fun phrase => .ok (left.text ++ " " ++ phrase)
    else if f.rightKind = .field then
      if (comparisonSymbols.lookup f.operator).isNone then some (.error .literalRequired)
      else
        match f.right with
        | none => some (.error .fieldRequired)
        | some ref =>
          match columnOf ref aliases registry with
          | .error fault => some (.error fault)
          | .ok right =>
            (comparisonSymbols.lookup f.operator).map fun symbol =>
              .ok (left.text ++ " " ++ symbol ++ " " ++ right.text)
    else if f.operator ∈ searchOperators then
      match f.value with
      | none => some (.error .emptyValue)
      | some value =>
        if Text.isBlankText value then some (.error .emptyValue)
        else some (.ok (searchClause left (searchOf f.operator) value postgres))
    else
      match valueOf f.operator f.valueKind f.value with
      | .error fault => some (.error fault)
      | .ok value =>
        (comparisonSymbols.lookup f.operator).map fun symbol =>
          .ok (left.text ++ " " ++ symbol ++ " " ++ value.written)

variable {aliases : List (String × String)} {registry : Registry} {postgres : Bool}

/-- No lookup fails, and the outcome is that of the predicate. -/
theorem clauseByTables_eq (f : Spec) :
    clauseByTables aliases registry postgres f =
      some ((predicateOf f aliases registry).map (·.clause postgres)) := by
  obtain ⟨id, ref, operator, rightKind, value, right, kind⟩ := f
  unfold clauseByTables predicateOf
  cases columnOf ref aliases registry with
  | error fault => rfl
  | ok left =>
    simp only [lookup_operatorsByType, lookup_testPhrases, lookup_comparisonSymbols, Option.bind_some,
      bind, Except.bind]
    -- behind the tests and the searches only a comparison is left, and each has a symbol
    by_cases hvalid : operator ∈ operatorsFor left.type
    · cases operator with
      | test t => simp [hvalid, Except.map, Predicate.clause]
      | search s =>
        cases rightKind with
        | field => simp [hvalid, Except.map, Operator.comparator?]
        | value =>
          cases value with
          | none => simp [hvalid, Except.map, search_mem_searchOperators]
          | some value =>
            cases hblank : Text.isBlankText value <;>
              simp [hvalid, hblank, Except.map, Predicate.clause, searchOf_search, search_mem_searchOperators]
      | compare c =>
        cases rightKind with
        | field =>
          cases right with
          | none => simp [hvalid, Except.map, Operator.comparator?]
          | some ref =>
            cases hright : columnOf ref aliases registry <;>
              simp [hvalid, hright, Except.map, Predicate.clause, Operator.comparator?]
        | value =>
          cases valueOf (.compare c) kind value <;>
            simp [hvalid, Except.map, Predicate.clause, Operator.comparator?, compare_notMem_searchOperators]
    · simp [hvalid, Except.map]

/-! ## The loop -/

/-- One more filter is compiled behind those that are done. -/
def takeFilter (aliases : List (String × String)) (registry : Registry) (postgres : Bool)
    (done : List String × List String) (p : Spec × Nat) : Option (List String × List String) :=
  (clauseByTables aliases registry postgres p.1).map fun
    | .ok clause => (done.1 ++ [clause], done.2)
    | .error fault => (done.1, done.2 ++ [(Report.mk p.2 p.1 fault).text])

/-- Compile filters one after the other with the tables: their clauses and their errors, none if a lookup
fails. -/
def compileByTables (aliases : List (String × String)) (registry : Registry) (postgres : Bool)
    (filters : List Spec) : Option (List String × List String) :=
  (filters.zipIdx 1).foldlM (takeFilter aliases registry postgres) ([], [])

theorem foldlM_takeFilter (position : Nat) (filters : List Spec) (clauses errors : List String) :
    (filters.zipIdx position).foldlM (takeFilter aliases registry postgres) (clauses, errors) =
      some (clauses ++ (compileFrom aliases registry position filters).clauses postgres,
        errors ++ (compileFrom aliases registry position filters).errors) := by
  induction filters generalizing position clauses errors with
  | nil => simp [compileFrom, Compilation.clauses]
  | cons f filters ih =>
    rw [List.zipIdx_cons, List.foldlM_cons, takeFilter, clauseByTables_eq, compileFrom]
    cases predicateOf f aliases registry with
    | error fault => simp [Except.map, ih, Compilation.cons, Compilation.clauses, Report.text]
    | ok p => simp [Except.map, ih, Compilation.cons, Compilation.clauses]

/-! ## Clauses and reports -/

/-- The clause of a filter, unless it has a fault. -/
def clause? (aliases : List (String × String)) (registry : Registry) (postgres : Bool) (f : Spec) :
    Option String :=
  (predicateOf f aliases registry).toOption.map (·.clause postgres)

/-- The report of a filter at a position, if it has a fault. -/
def report? (aliases : List (String × String)) (registry : Registry) (p : Spec × Nat) : Option Report :=
  match predicateOf p.1 aliases registry with
  | .ok _ => none
  | .error fault => some ⟨p.2, p.1, fault⟩

/-- The reports of filters that are numbered from a position. -/
def reportsFrom (aliases : List (String × String)) (registry : Registry) (position : Nat)
    (filters : List Spec) : List Report :=
  (filters.zipIdx position).filterMap (report? aliases registry)

theorem compileFrom_clauses (position : Nat) (filters : List Spec) :
    (compileFrom aliases registry position filters).clauses postgres =
      filters.filterMap (clause? aliases registry postgres) := by
  induction filters generalizing position with
  | nil => rfl
  | cons f filters ih =>
    rw [compileFrom, List.filterMap_cons, ← ih (position + 1), clause?]
    cases predicateOf f aliases registry <;> rfl

theorem compileFrom_errors (position : Nat) (filters : List Spec) :
    (compileFrom aliases registry position filters).errors =
      (reportsFrom aliases registry position filters).map Report.text := by
  induction filters generalizing position with
  | nil => rfl
  | cons f filters ih =>
    rw [compileFrom, reportsFrom, List.zipIdx_cons, List.filterMap_cons, report?]
    cases predicateOf f aliases registry with
    | ok p => exact ih (position + 1)
    | error fault => exact congrArg (_ :: ·) (ih (position + 1))

/-- Each filter gives a clause or a report. -/
theorem length_clauses_add_length_errors (position : Nat) (filters : List Spec) :
    ((compileFrom aliases registry position filters).clauses postgres).length +
      (compileFrom aliases registry position filters).errors.length = filters.length := by
  induction filters generalizing position with
  | nil => rfl
  | cons f filters ih =>
    rw [compileFrom, List.length_cons, ← ih (position + 1)]
    cases predicateOf f aliases registry with
    | ok p => exact Nat.succ_add _ _
    | error fault => rfl

theorem report?_add (n : Nat) (p : Spec × Nat) :
    report? aliases registry (p.1, p.2 + n) = (report? aliases registry p).map (Report.shift n) := by
  unfold report?
  cases predicateOf p.1 aliases registry <;> rfl

/-- Filters that stand further behind give the same reports, further behind. -/
theorem reportsFrom_add (position n : Nat) (filters : List Spec) :
    reportsFrom aliases registry (position + n) filters =
      (reportsFrom aliases registry position filters).map (Report.shift n) := by
  rw [reportsFrom, reportsFrom, Nat.add_comm, ← List.map_snd_add_zipIdx_eq_zipIdx, List.filterMap_map,
    List.map_filterMap]
  exact congrArg (List.filterMap · _) (funext (report?_add n))

theorem reportsFrom_append (position : Nat) (filters others : List Spec) :
    reportsFrom aliases registry position (filters ++ others) =
      reportsFrom aliases registry position filters ++
        (reportsFrom aliases registry position others).map (Report.shift filters.length) := by
  rw [← reportsFrom_add, reportsFrom, List.zipIdx_append, List.filterMap_append]
  rfl

/-- Compiling filters accounts for each of them.  No lookup of an operator fails; the clauses are those of
the filters without a fault, the errors the reports of the others with their positions from 1 on, both in
filter order and together one for each filter; and filters that follow others give what they give alone,
with their positions moved up. -/
theorem compile_accounts (aliases : List (String × String)) (registry : Registry) (postgres : Bool)
    (filters others : List Spec) :
    let compiled := compile filters aliases registry
    let further := compile others aliases registry
    let reports := reportsFrom aliases registry 1
    compileByTables aliases registry postgres filters = some (compiled.clauses postgres, compiled.errors) ∧
    compiled.clauses postgres = filters.filterMap (clause? aliases registry postgres) ∧
    compiled.errors = (reports filters).map Report.text ∧
    (compiled.clauses postgres).length + compiled.errors.length = filters.length ∧
    (compile (filters ++ others) aliases registry).clauses postgres =
      compiled.clauses postgres ++ further.clauses postgres ∧
    (compile (filters ++ others) aliases registry).errors =
      compiled.errors ++ ((reports others).map (Report.shift filters.length)).map Report.text := by
  intro compiled further reports
  have hclauses (fs : List Spec) :
      (compile fs aliases registry).clauses postgres = fs.filterMap (clause? aliases registry postgres) :=
    compileFrom_clauses 1 fs
  have herrors (fs : List Spec) : (compile fs aliases registry).errors = (reports fs).map Report.text :=
    compileFrom_errors 1 fs
  refine ⟨?_, hclauses filters, herrors filters, length_clauses_add_length_errors 1 filters, ?_, ?_⟩
  · exact foldlM_takeFilter 1 filters [] []
  · rw [hclauses, List.filterMap_append, ← hclauses, ← hclauses]
  · calc (compile (filters ++ others) aliases registry).errors
        = (reports (filters ++ others)).map Report.text := herrors (filters ++ others)
      _ = (reports filters).map Report.text ++
            ((reports others).map (Report.shift filters.length)).map Report.text := by
          rw [← List.map_append]
          exact congrArg (List.map Report.text) (reportsFrom_append 1 filters others)
      _ = compiled.errors ++ ((reports others).map (Report.shift filters.length)).map Report.text := by
          rw [← herrors filters]

end AdhocReport.Filter
