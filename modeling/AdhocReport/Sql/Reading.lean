import AdhocReport.Sql.Statement
set_option autoImplicit false

/-!
# SQL: the order of reading

Which rows a statement has does not depend on the order in which tables are read, but a limit without
an order keeps the rows that are read first.  SQLite lets one table lead: the one from whose records
all others that are joined without exception are found by their primary keys.  Its records are read
in the order of its primary key.  A table joined on the left adds its matches in the order of those
of its columns that the statement uses.
-/

namespace AdhocReport.Sql

open AdhocReport.Query

/-! ## Columns that a statement uses -/

/-- A column by model and name. -/
abbrev ColumnName : Type := String × String

/-- The names of a column in a statement. -/
def ColumnUse.fullName (c : ColumnUse) : ColumnName := (c.model, c.column.name)

mutual

/-- The columns of an expression. -/
def Scalar.columns : Scalar → List ColumnName
  | .column c => [c.fullName]
  | .literal _ => []
  | .negated e => Scalar.columns e
  | .binary _ l r => Scalar.columns l ++ Scalar.columns r
  | .quotient l r => Scalar.columns l ++ Scalar.columns r
  | .call _ args => Scalar.columnsAll args
  | .aggregate _ e => Scalar.columns e
  | .period _ c => [c.fullName]
termination_by structural e => e

/-- The columns of several expressions. -/
def Scalar.columnsAll : List Scalar → List ColumnName
  | [] => []
  | e :: rest => Scalar.columns e ++ Scalar.columnsAll rest
termination_by structural args => args

end

/-- The names of a column in a predicate. -/
def clauseColumnName (c : Filter.ClauseColumn) : ColumnName := (c.tableAlias, c.name)

/-- The columns of a predicate. -/
def predicateColumns : Filter.Predicate → List ColumnName
  | .test c _ => [clauseColumnName c]
  | .search c _ _ => [clauseColumnName c]
  | .compareFields a _ b => [clauseColumnName a, clauseColumnName b]
  | .compareValue a _ _ => [clauseColumnName a]

/-- The columns of an equality. -/
def Equality.columns (e : Equality) : List ColumnName := [e.left.fullName, e.right.fullName]

/-- The columns of a condition. -/
def Condition.columns : Condition → List ColumnName
  | .equal e => e.columns
  | .compare c _ _ => [c.fullName]
  | .predicate p => predicateColumns p

/-- The columns of the equalities of a source, those within its right sides apart. -/
def Source.columns : Source → List ColumnName
  | .table _ _ => []
  | .join _ l _ on => l.columns ++ on.columns

/-- The columns that a statement uses. -/
def Statement.columns (s : Statement) : List ColumnName :=
  Scalar.columnsAll (s.outputs.map (·.value)) ++ s.conditions.flatMap (·.columns) ++ s.source.columns

/-! ## Joins without exception -/

/-- The models that have a record in every row that satisfies a condition, as SQLite finds out: a
comparison fails where a value is missing. -/
def Condition.demands : Condition → List String
  | .predicate (.test c .isNotNull) => [c.tableAlias]
  | .predicate (.test _ _) => []
  | .predicate (.search _ _ _) => []
  | c => c.columns.map (·.1)

/-- The equalities of the inner joins of a source. -/
def Source.innerEqualities : Source → List Equality
  | .table _ _ => []
  | .join .inner l _ on => l.innerEqualities ++ [on]
  | .join _ l _ _ => l.innerEqualities

/-- The models that have a record in every row of a source that satisfies some conditions. -/
def Source.demanded (s : Source) (conditions : List Condition) : List String :=
  conditions.flatMap (·.demands) ++ s.innerEqualities.flatMap fun e => e.columns.map (·.1)

/-- An equality finds the record of a model by its primary key from the records of others. -/
def Equality.finds (e : Equality) (known : List String) (model : String) : Bool :=
  (e.left.model == model && e.left.column.primaryKey && known.contains e.right.model)
    || (e.right.model == model && e.right.column.primaryKey && known.contains e.left.model)

/-- The models among `models` whose records are found from those of `known`.  The fuel is at least
the number of models. -/
def reachable (equalities : List Equality) (models : List String) : Nat → List String → List String
  | 0, known => known
  | fuel + 1, known =>
    match models.find? fun m => !known.contains m && equalities.any fun e => e.finds known m with
    | some m => reachable equalities models fuel (known ++ [m])
    | none => known

/-- The models whose records are found from those of one model, itself included. -/
def reachableFrom (equalities : List Equality) (models : List String) (m : String) : List String :=
  reachable equalities models models.length [m]

/-- The first model from whose records those of the most others are found. -/
def leader? (equalities : List Equality) (models : List String) : Option String :=
  let reach := fun m => (reachableFrom equalities models m).length
  models.find? fun m => models.all fun n => reach n ≤ reach m

/-! ## The order of rows -/

/-- How a source is read. -/
structure Reading where
  /-- The models joined without exception. -/
  firm : List String
  equalities : List Equality
  /-- The columns by which the matches of the other tables come. -/
  later : List ColumnName

/-- The primary key of a table. -/
def primaryKeyOf (model : String) (t : Schema.Table) : List ColumnName :=
  (t.columns.filter (·.primaryKey)).map fun c => (model, c.name)

/-- The columns of a table, its primary key apart, that are used. -/
def usedColumns (used : List ColumnName) (model : String) (t : Schema.Table) : List ColumnName :=
  ((t.columns.filter fun c => !c.primaryKey).map fun c => (model, c.name)).filter used.contains

/-- The columns by which the matches of a table come. -/
def matchOrder (used : List ColumnName) (model : String) (t : Schema.Table) : List ColumnName :=
  usedColumns used model t ++ primaryKeyOf model t

/-- The tables of a source by model. -/
def Source.tables : Source → List (String × Schema.Table)
  | .table m t => [(m, t)]
  | .join _ l r _ => l.tables ++ r.tables

/-- All columns of a source. -/
def Source.allColumns : Source → List ColumnName
  | .table m t => t.columns.map fun c => (m, c.name)
  | .join _ l r _ => l.allColumns ++ r.allColumns

/-- The equalities relate only models that are joined without exception. -/
def Reading.isClosed (r : Reading) (closing : List Equality) : Bool :=
  (r.equalities ++ closing).all fun e => e.columns.all fun c => r.firm.contains c.1

/-- The leading model of a reading, if there is one, and the models found from it. -/
def Reading.lead? (r : Reading) (closing : List Equality) : Option (String × List String) :=
  let equalities := r.equalities ++ closing
  if r.isClosed closing then
    (leader? equalities r.firm).map fun m => (m, reachableFrom equalities r.firm m)
  else none

/-- The columns by which the rows of a reading come: the primary key of the leading table, the columns
of the tables that are not found from it, and those of the tables joined on the left. -/
def Reading.keys? (r : Reading) (s : Source) (used : List ColumnName) (closing : List Equality) :
    Option (List ColumnName) :=
  (r.lead? closing).map fun (m, found) =>
    let tables := fun (keep : String → Bool) => s.tables.filter fun t => keep t.1
    (tables (· == m)).flatMap (fun t => primaryKeyOf t.1 t.2)
      ++ (tables fun n => r.firm.contains n && !found.contains n).flatMap (fun t => matchOrder used t.1 t.2)
      ++ r.later

/-- How a source is read when some models have a record in every row; none if its order is not
settled by these rules. -/
def Source.reading? (used : List ColumnName) (demanded : List String) : Source → Option Reading
  | .table m _ => some ⟨[m], [], []⟩
  | .join .full _ _ _ => none
  | .join kind l r on => do
    let a ← l.reading? used demanded
    match r with
    | .table m t =>
      if kind == .inner || demanded.contains m then
        pure { a with firm := a.firm ++ [m], equalities := a.equalities ++ [on] }
      else pure { a with later := a.later ++ matchOrder used m t }
    | .join _ _ _ _ =>
      if kind == .inner || r.models.any demanded.contains then none
      else
        let b ← r.reading? r.allColumns (r.demanded [])
        let keys ← b.keys? r r.allColumns []
        pure { a with later := a.later ++ r.allColumns.filter used.contains ++ keys }

/-- The equalities among conditions. -/
def closingEqualities (conditions : List Condition) : List Equality :=
  conditions.filterMap fun
    | .equal e => some e
    | _ => none

/-- The columns by which the rows of a statement come when nothing orders them. -/
def Statement.readingKeys? (s : Statement) : Option (List ColumnName) := do
  let r ← s.source.reading? s.columns (s.source.demanded s.conditions)
  r.keys? s.source s.columns (closingEqualities s.conditions)

/-! ## Groups in the order of reading -/

/-- The models whose records are found from those of `known`: the tables joined on the left, in
turn, each by its primary key. -/
def Source.determined (known : List String) : Source → List String
  | .table _ _ => known
  | .join kind l r on =>
    let found := l.determined known
    match kind, r with
    | .left, .table m _ =>
      if !found.contains m && l.models.all found.contains && on.finds found m then found ++ [m] else found
    | _, _ => found

/-- The expression is the primary key of a model. -/
def isPrimaryKey (model : String) : Scalar → Bool
  | .column c => c.model == model && c.column.primaryKey
  | _ => false

/-- The keys tell the records of the leading table apart and use nothing that these do not determine,
so that reading the records in their order brings the rows of a group together. -/
def Statement.keysFollowRows (s : Statement) : Bool :=
  let closing := closingEqualities s.conditions
  match s.source.reading? s.columns (s.source.demanded s.conditions) with
  | none => false
  | some r =>
    match r.lead? closing with
    | none => false
    | some (m, found) =>
      let keys := s.keys.map (·.value)
      let found := s.source.determined found
      keys.any (isPrimaryKey m) && (Scalar.columnsAll keys).all fun c => found.contains c.1

end AdhocReport.Sql
