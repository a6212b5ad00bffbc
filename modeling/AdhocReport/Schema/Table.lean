import AdhocReport.Collection.Sorting
set_option autoImplicit false

/-!
# Schema: table metadata

What introspection knows of the stored tables: names, comments and columns with their raw types,
keys and foreign keys.  Tables are listed with the targets of their foreign keys first.
-/

namespace AdhocReport.Schema

/-- The types of stored columns. -/
inductive ColumnType where
  | integer
  | text
  | numeric (scale : Nat)
  | boolean
  | datetime
  | date
  /-- A type of which only the name is known. -/
  | other
  deriving DecidableEq, Repr

/-- The column that a foreign key points to. -/
structure KeyTarget where
  table : String
  column : String
  deriving DecidableEq, Repr

/-- A column of a table.  Expressions find it by its key, statements write its name. -/
structure Column where
  name : String
  key : String
  rawType : String
  type : ColumnType
  foreignKeys : List KeyTarget
  primaryKey : Bool
  nullable : Bool
  deriving DecidableEq, Repr

/-- A table. -/
structure Table where
  name : String
  comment : Option String
  columns : List Column
  deriving DecidableEq, Repr

/-- The column with a key. -/
def Table.column? (t : Table) (key : String) : Option Column := t.columns.find? fun c => c.key == key

/-- The tables that the foreign keys of a table point to, itself apart. -/
def Table.dependencies (t : Table) : List String :=
  (t.columns.flatMap fun c => c.foreignKeys.map (·.table)).filter fun name => name != t.name

/-- The tables that can be reached in at most `n` further steps over foreign keys. -/
def reachable (tables : List Table) : Nat → List String → List String
  | 0, found => found
  | n + 1, found =>
    reachable tables n
      (Collection.distinct (found ++ (tables.filter fun t => found.contains t.name).flatMap Table.dependencies))

/-- A table is on a circle of foreign keys. -/
def onCircle (tables : List Table) (t : Table) : Bool :=
  (reachable tables tables.length t.dependencies).contains t.name

/-- The tables that have to be listed before a table; one on a circle waits for none. -/
def mustPrecede (tables : List Table) (t : Table) : List String :=
  if onCircle tables t then [] else t.dependencies

/-- List the tables in rounds: each round takes, in their order, the pending tables that wait for
no pending table. -/
def emitRounds (waitsFor : Table → List String) : Nat → List Table → List Table
  | 0, pending => pending
  | fuel + 1, pending =>
    let names := pending.map (·.name)
    let ready := pending.filter fun t => (waitsFor t).all fun d => !names.contains d
    let readyNames := ready.map (·.name)
    if ready.isEmpty then pending
    else ready ++ emitRounds waitsFor fuel (pending.filter fun t => !readyNames.contains t.name)

/-- The tables with those that others point to first, else by name. -/
def sortedTables (tables : List Table) : List Table :=
  emitRounds (mustPrecede tables) tables.length
    (Collection.sortBy (fun a b => Collection.textLe a.name b.name) tables)

end AdhocReport.Schema
