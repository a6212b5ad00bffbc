import AdhocReport.Sql.Reading
import AdhocReport.Sql.Evaluation
import AdhocReport.Sql.Matching
set_option autoImplicit false

/-!
# SQL: the rows of a statement

The rows of a statement are those of its source that satisfy its conditions, grouped by its keys,
ordered and cut off.  A join combines each row of its left side with the rows of its right side that
match it; an unmatched row that a join keeps has no values on the other side.
-/

namespace AdhocReport.Sql

open AdhocReport.Query

/-- What the tables hold. -/
abbrev Content : Type := String → List Record

/-! ## Comparisons -/

/-- A column holds texts only; the others turn texts that are numbers into numbers. -/
def holdsTexts (t : Schema.ColumnType) : Bool := t == .text

/-- The result of a comparison under an ordering. -/
def comparatorHolds (c : Filter.Comparator) (o : Ordering) : Bool :=
  match c, o with
  | .eq, .eq => true
  | .neq, .lt => true
  | .neq, .gt => true
  | .gt, .gt => true
  | .gte, .gt => true
  | .gte, .eq => true
  | .lt, .lt => true
  | .lte, .lt => true
  | .lte, .eq => true
  | _, _ => false

/-- Compare two values that are both there. -/
def valuesCompare (c : Filter.Comparator) (a b : Value) : Bool :=
  match a.compare? b with
  | some o => comparatorHolds c o
  | none => false

/-- The value of a column made comparable with the other side. -/
def comparable (asTexts : Bool) (v : Value) : Value := if asTexts then v.asText else v.asNumeric

/-- Compare a column with a value: with a column of texts as texts, else as numbers where both are. -/
def columnCompare (c : Filter.Comparator) (texts : Bool) (a b : Value) : Bool :=
  valuesCompare c (comparable texts a) (comparable texts b)

/-- Compare two columns: as texts if both hold texts, else as numbers where both are. -/
def Equality.holds (e : Equality) (r : Row) : Bool :=
  columnCompare .eq (holdsTexts e.left.column.type && holdsTexts e.right.column.type)
    (e.left.value r) (e.right.value r)

/-- The value that a clause compares with. -/
def clauseValue : Filter.ClauseValue → Value
  | .number numeral => (readNumber numeral.toList).value
  | .truth b => .ofBool b
  | .text s => .text s

/-- The stored type of a clause's column. -/
def clauseType (types : String → String → Schema.ColumnType) (c : Filter.ClauseColumn) : Schema.ColumnType :=
  types c.tableAlias c.name

/-- A row satisfies a predicate; `types` gives the stored types of columns. -/
def predicateHolds (types : String → String → Schema.ColumnType) (r : Row) : Filter.Predicate → Bool
  | .test c t =>
    let v := r c.tableAlias c.name
    match t with
    | .isNull => v.isNull
    | .isNotNull => !v.isNull
    | .isTrue => v.isTrue
    | .isFalse => v.isFalse
  | .search c s value =>
    likeValue (String.ofList (Filter.patternOf s value.toList)) (r c.tableAlias c.name)
  | .compareFields a c b =>
    columnCompare c (holdsTexts (clauseType types a) && holdsTexts (clauseType types b))
      (r a.tableAlias a.name) (r b.tableAlias b.name)
  | .compareValue a c v => columnCompare c (holdsTexts (clauseType types a)) (r a.tableAlias a.name) (clauseValue v)

/-- A row satisfies a condition. -/
def Condition.holds (types : String → String → Schema.ColumnType) (r : Row) : Condition → Bool
  | .equal e => e.holds r
  | .compare c comparator v => columnCompare comparator (holdsTexts c.column.type) (c.value r) (.ofLiteral v)
  | .predicate p => predicateHolds types r p

/-! ## Sources -/

/-- The row of one record. -/
def Row.single (model : String) (rec : Record) : Row := fun m => if m = model then rec else Record.missing

/-- The row with the records of `right` for some models, else those of `left`. -/
def Row.merge (models : List String) (left right : Row) : Row :=
  fun m => if models.contains m then right m else left m

/-- The rows of a left row with its matches. -/
def matched (models : List String) (on : Row → Bool) (a : Row) (right : List Row) : List Row :=
  (right.map (Row.merge models a)).filter on

/-- The rows of a join; `models` are those of the right side. -/
def joinRows (kind : JoinKind) (models : List String) (on : Row → Bool) (left right : List Row) : List Row :=
  match kind with
  | .inner => left.flatMap fun a => matched models on a right
  | .left => left.flatMap fun a =>
    let found := matched models on a right
    if found.isEmpty then [a] else found
  | .full =>
    (left.flatMap fun a =>
      let found := matched models on a right
      if found.isEmpty then [a] else found)
    ++ right.filter fun b => !left.any fun a => on (Row.merge models a b)

/-- The rows of a source. -/
def Source.rows (content : Content) : Source → List Row
  | .table m t => (content t.name).map (Row.single m)
  | .join kind l r on => joinRows kind r.models on.holds (l.rows content) (r.rows content)

/-- The stored type of a column by its name. -/
def Source.columnType (s : Source) (model name : String) : Schema.ColumnType :=
  match s.tables.lookup model with
  | none => .other
  | some t => ((t.columns.find? fun c => c.name == name).map (·.type)).getD .other

namespace Statement

/-- The rows that satisfy the conditions. -/
def matchingRows (s : Statement) (content : Content) : List Row :=
  let types := s.source.columnType
  (s.source.rows content).filter fun r => s.conditions.all fun c => c.holds types r

/-- Compare lists of values one by one, each in its direction. -/
def compareKeys : List Direction → List Value → List Value → Ordering
  | d :: ds, a :: as, b :: bs =>
    match a.order b, d with
    | .eq, _ => compareKeys ds as bs
    | o, .asc => o
    | o, .desc => o.swap
  | _, _, _ => .eq

/-- Rows in the order in which they are read. -/
def inReadingOrder (s : Statement) (rows : List Row) : List Row :=
  match s.readingKeys? with
  | none => rows
  | some columns =>
    let keys := fun (r : Row) => columns.map fun c => r c.1 c.2
    Collection.sortBy (fun a b => compareKeys (columns.map fun _ => .asc) (keys a) (keys b) != .gt) rows

/-! ## Groups -/

/-- Put a row into the first group with the same keys, or into a new one at the end. -/
def enlist (keys : List Value) (r : Row) : List (List Value × List Row) → List (List Value × List Row)
  | [] => [(keys, [r])]
  | (ks, rs) :: rest =>
    if (List.zipWith Value.same ks keys).all id then (ks, rs ++ [r]) :: rest
    else (ks, rs) :: enlist keys r rest

/-- Rows grouped by keys, the groups in the order in which they first appear. -/
def grouped (keys : Row → List Value) (rows : List Row) : List (List Value × List Row) :=
  rows.foldl (fun groups r => enlist (keys r) r groups) []

/-- The directions in which groups are sorted: those of the order, if it has as many terms. -/
def keyDirections (s : Statement) : List Direction :=
  if s.orderBy.length == s.keys.length then s.orderBy.map (·.direction) else s.keys.map fun _ => .asc

/-- The groups of rows in the order in which they are formed. -/
def groupsOf (s : Statement) (rows : List Row) : List Group :=
  let groups := grouped (fun r => s.keys.map fun o => o.value.value (.single r)) rows
  let sorted := if s.keysFollowRows then groups
    else Collection.sortBy (fun a b => compareKeys s.keyDirections a.1 b.1 != .gt) groups
  sorted.map fun g => ⟨g.2, g.2.headD Row.missing⟩

/-- The row that shows the columns outside of aggregates: where the last of the extremes was found,
else the last one. -/
def shownRow (extremes : List (Bool × Scalar)) (rows : List Row) : Row :=
  match extremes.getLast? with
  | none => rows.getLastD Row.missing
  | some (greatest, e) =>
    (rows.foldl (fun (best, shown) r =>
      let v := e.value (.single r)
      if v.isNull then (best, if best.isNull then r else shown)
      else if best.isNull || replaces greatest best v then (v, r) else (best, shown))
      ((.null, Row.missing) : Value × Row)).2

/-- The outputs contain an aggregate. -/
def hasAggregate (s : Statement) : Bool := s.outputs.any fun o => 0 < o.value.aggregateDepth

/-- The groups that give a result row each: by keys if there are any, all rows together if there is
an aggregate, else every row alone. -/
def groups (s : Statement) (rows : List Row) : List Group :=
  if !s.keys.isEmpty then s.groupsOf rows
  else if s.hasAggregate then
    [⟨rows, shownRow (s.outputs.flatMap fun o => o.value.extremes) rows⟩]
  else rows.map Group.single

/-! ## Results -/

/-- A result row by label. -/
def labelledValue (labels : List String) (values : List Value) (label : String) : Value :=
  ((labels.zip values).lookup label).getD .null

/-- Sort result rows by labels. -/
def ordered (s : Statement) (rows : List (List Value)) : List (List Value) :=
  let labels := s.outputs.map (·.label)
  let keys := fun (values : List Value) => s.orderBy.map fun o => labelledValue labels values o.outputAlias
  Collection.sortBy (fun a b => compareKeys (s.orderBy.map (·.direction)) (keys a) (keys b) != .gt) rows

/-- The first rows within the limit; a negative limit is none. -/
def limited (s : Statement) (rows : List (List Value)) : List (List Value) :=
  if s.limit < 0 then rows else rows.take s.limit.toNat

/-- The result rows of a statement. -/
def results (s : Statement) (content : Content) : List (List Value) :=
  let groups := s.groups (s.inReadingOrder (s.matchingRows content))
  s.limited (s.ordered (groups.map fun g => s.outputs.map fun o => o.value.value g))

end Statement

end AdhocReport.Sql
