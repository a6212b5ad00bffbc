import AdhocReport.Sql.Fragment
import AdhocReport.Sql.Template
import AdhocReport.Filter.Clause
set_option autoImplicit false

/-!
# SQL: statements

A statement selects labelled expressions from joined tables.  Its text has the values in place, as
long as every one of them can be written as a literal; a value that is compared with a column of a
type that is not understood cannot, and then the text has parameters throughout.
-/

namespace AdhocReport.Sql

open AdhocReport.Query

/-- Which side of a join keeps its unmatched rows. -/
inductive JoinKind where
  | inner
  | left
  | full
  deriving DecidableEq, Repr

/-- Two columns that have to be equal. -/
structure Equality where
  left : ColumnUse
  right : ColumnUse
  deriving DecidableEq, Repr

/-- Where rows come from. -/
inductive Source where
  /-- A table under the alias of a model. -/
  | table (model : String) (table : Schema.Table)
  | join (kind : JoinKind) (left right : Source) (on : Equality)

/-- What a row has to satisfy. -/
inductive Condition where
  | equal (e : Equality)
  | compare (c : ColumnUse) (comparator : Filter.Comparator) (value : Literal)
  | predicate (p : Filter.Predicate)
  deriving DecidableEq

/-- A labelled expression. -/
structure Output where
  label : String
  value : Scalar

/-- A statement. -/
structure Statement where
  /-- The outputs that rows are grouped by. -/
  keys : List Output
  values : List Output
  source : Source
  conditions : List Condition
  orderBy : List OrderBy
  limit : Int

namespace Statement

/-- The outputs in the order of the result columns. -/
def outputs (s : Statement) : List Output := s.keys ++ s.values

end Statement

/-- The models of a source from left to right. -/
def Source.models : Source → List String
  | .table m _ => [m]
  | .join _ l r _ => l.models ++ r.models

/-- The source is a join. -/
def Source.isJoin : Source → Bool
  | .table _ _ => false
  | .join _ _ _ _ => true

/-- The words of a join. -/
def JoinKind.words : JoinKind → String
  | .inner => " JOIN "
  | .left => " LEFT OUTER JOIN "
  | .full => " FULL OUTER JOIN "

/-- An equality as a statement writes it. -/
def Equality.text (d : Dialect) (e : Equality) : String := e.left.text d ++ " = " ++ e.right.text d

/-- A source as a statement writes it; a join on the right stands in parentheses. -/
def Source.text (d : Dialect) : Source → String
  | .table m t => nameText d t.name ++ " AS " ++ nameText d m
  | .join kind l r on =>
    let right := if r.isJoin then "(" ++ r.text d ++ ")" else r.text d
    l.text d ++ kind.words ++ right ++ " ON " ++ on.text d

/-- The symbol of a comparison in a statement. -/
def comparatorSymbol : Filter.Comparator → String
  | .neq => "!="
  | c => c.symbol

/-- A predicate as a statement writes it: its text is handed over with all colons escaped. -/
def predicateText (d : Dialect) (p : Filter.Predicate) : String :=
  let clause := p.clause (d == .postgresql)
  driverText d (String.ofList (Template.render (Template.escape clause.toList)))

/-- A condition as a statement writes it. -/
def Condition.fragment (d : Dialect) : Condition → Fragment
  | .equal e => [.text (e.text d)]
  | .compare c comparator value =>
    let head := Piece.text (c.text d ++ " " ++ comparatorSymbol comparator ++ " ")
    match value with
    | .truth b => [head, .text (literalText d (.truth b))]
    | v => [head, .value ⟨c.column.key, v, c.column.type != .other⟩]
  | .predicate p => [.text (predicateText d p)]

/-- The value of a condition cannot be written as a literal. -/
def Condition.needsParameter : Condition → Bool
  | .compare _ _ (.truth _) => false
  | .compare c _ _ => c.column.type == .other
  | _ => false

/-- A labelled expression as a statement writes it. -/
def labelled (d : Dialect) (text label : String) : String := text ++ " AS " ++ nameText d label

/-- An order as a statement writes it. -/
def orderText (d : Dialect) (o : OrderBy) : String :=
  nameText d o.outputAlias ++ (match o.direction with
    | .asc => " ASC"
    | .desc => " DESC")

/-- Texts after a heading; nothing if there are none. -/
def section? (heading sep : String) (texts : List String) : String :=
  if texts.isEmpty then "" else heading ++ Json.joined sep texts

/-- A statement with its parts already written. -/
def Statement.assemble (s : Statement) (d : Dialect) (keys values conditions : List String)
    (limit offset : String) : String :=
  let labels := s.outputs.map (·.label)
  "SELECT " ++ Json.joined ", " (List.zipWith (labelled d) (keys ++ values) labels)
    ++ " \nFROM " ++ s.source.text d
    ++ section? " \nWHERE " " AND " conditions
    ++ section? " GROUP BY " ", " keys
    ++ section? " ORDER BY " ", " (s.orderBy.map (orderText d))
    ++ (match d with
      | .sqlite => "\n LIMIT " ++ limit ++ " OFFSET " ++ offset
      | .postgresql => " \n LIMIT " ++ limit)

/-- Write parameters for the values of several fragments in turn. -/
def boundAll (d : Dialect) : Counters → List Fragment → List String × Counters
  | c, [] => ([], c)
  | c, f :: rest =>
    let (text, c) := f.bound d c
    let (texts, c) := boundAll d c rest
    (text :: texts, c)

/-- The text of a statement with all values in place. -/
def Statement.inlineText (s : Statement) (d : Dialect) : String :=
  let write := fun (o : Output) => (o.value.fragment d).inline d
  s.assemble d (s.keys.map write) (s.values.map write)
    (s.conditions.map fun c => (c.fragment d).inline d) (Decimal.intText s.limit) "0"

/-- The text of a statement with parameters for all values. -/
def Statement.boundText (s : Statement) (d : Dialect) : String :=
  let write := fun (o : Output) => o.value.fragment d
  let (keys, c) := boundAll d [] (s.keys.map write)
  let (values, c) := boundAll d c (s.values.map write)
  let (conditions, c) := boundAll d c (s.conditions.map (·.fragment d))
  s.assemble d keys values conditions (parameterText d c ⟨"param", .int s.limit, true⟩) "?"

/-- The text of a statement. -/
def Statement.text (s : Statement) (d : Dialect) : String :=
  if s.conditions.any (·.needsParameter) then s.boundText d else s.inlineText d

end AdhocReport.Sql
