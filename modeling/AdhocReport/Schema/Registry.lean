import AdhocReport.Schema.Model
import AdhocReport.Schema.Table
import AdhocReport.Text.LetterCase
set_option autoImplicit false

/-!
# Schema: the registry

The registry holds the models by id in the order they were given.  Introspection makes one model of
each table, one field of each column, and two associations of each foreign key: `belongs_to` at the
table that has the key and `has_many` at the table it points to.
-/

namespace AdhocReport.Schema

/-- The models that can be queried. -/
structure Registry where
  models : List Model
  deriving DecidableEq, Repr

namespace Registry

/-- Set a model: in the place of one with the same id, else at the end. -/
def put (models : List Model) (m : Model) : List Model :=
  match models with
  | [] => [m]
  | other :: rest => if other.id = m.id then m :: rest else other :: put rest m

/-- The registry of a list of models; of two with the same id the later one counts. -/
def ofModels (models : List Model) : Registry := ⟨models.foldl put []⟩

/-- The model with an id. -/
def model? (r : Registry) (id : String) : Option Model := r.models.find? fun m => m.id == id

/-- A model with this id is known. -/
def hasModel (r : Registry) (id : String) : Bool := (r.model? id).isSome

/-- A field of a model. -/
def field? (r : Registry) (model field : String) : Option Field :=
  match r.model? model with
  | some m => m.field? field
  | none => none

/-- The registry as it is served. -/
def toJson (r : Registry) : Json := .obj [("models", .arr (r.models.map Model.toJson))]

end Registry

/-- A label made of a name: underscores become blanks and each word gets a capital. -/
def labelOf (name : String) : String :=
  Text.title (String.ofList (name.toList.map fun c => if c == '_' then ' ' else c))

/-- A foreign key of a table: the column that has it and the column it points to. -/
structure ForeignKey where
  column : String
  target : KeyTarget
  deriving DecidableEq, Repr

/-- The foreign keys of a table in column order. -/
def Table.foreignKeys (t : Table) : List ForeignKey :=
  t.columns.flatMap fun c => c.foreignKeys.map fun target => ⟨c.name, target⟩

/-- The association at the table that has the key. -/
def belongsTo (k : ForeignKey) : Association :=
  ⟨"belongs_to", k.target.table, k.column, k.target.column, none, none⟩

/-- The association at the table that the key of `owner` points to. -/
def hasMany (owner : String) (k : ForeignKey) : Association :=
  ⟨"has_many", owner, k.column, k.target.column, none, none⟩

/-- What one foreign key of `owner` adds to the associations of the table `name`. -/
def associationsOf (name owner : String) (k : ForeignKey) : List Association :=
  (if owner == name then [belongsTo k] else []) ++ (if k.target.table == name then [hasMany owner k] else [])

/-- The associations of the table `name`, in the order of the tables and of their columns. -/
def associations (tables : List Table) (name : String) : List Association :=
  tables.flatMap fun t => t.foreignKeys.flatMap fun k => associationsOf name t.name k

/-- The field of a column. -/
def fieldOf (c : Column) : Field :=
  ⟨c.key, labelOf c.key, resolveType (some c.rawType) c.name c.primaryKey, some c.name, c.nullable,
    c.primaryKey, c.rawType⟩

/-- The first of the texts that is there and not empty, else the last resort. -/
def firstNonEmpty (a b : Option String) (other : String) : String :=
  match a, b with
  | some s, t => if s != "" then s else match t with
    | some u => if u != "" then u else other
    | none => other
  | none, some u => if u != "" then u else other
  | none, none => other

/-- The model of a table. -/
def modelOf (tables : List Table) (descriptions : List (String × String)) (t : Table) : Model :=
  ⟨t.name, labelOf t.name, t.name, t.columns.map fieldOf, associations tables t.name,
    firstNonEmpty (descriptions.lookup t.name) t.comment (labelOf t.name ++ " data model")⟩

/-- The registry of a set of tables. -/
def Registry.ofTables (tables : List Table) (descriptions : List (String × String)) : Registry :=
  let sorted := sortedTables tables
  .ofModels (sorted.map (modelOf sorted descriptions))

end AdhocReport.Schema
