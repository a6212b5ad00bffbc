import AdhocReport.Schema.FieldType
import AdhocReport.Json.Basic
set_option autoImplicit false

/-!
# Schema: models and fields

A model is a queryable table with its fields and its associations to other models.
-/

namespace AdhocReport.Schema

/-- A field of a model, backed by a column of its table. -/
structure Field where
  id : String
  label : String
  type : FieldType
  columnName : Option String
  nullable : Bool
  primaryKey : Bool
  rawType : String
  deriving DecidableEq, Repr

/-- The column behind a field: its column name, or its id when that is missing or empty. -/
def Field.backingColumn (f : Field) : String :=
  match f.columnName with
  | some name => if name == "" then f.id else name
  | none => f.id

/-- A relationship from one model to another. -/
structure Association where
  kind : String
  targetModel : String
  foreignKey : String
  sourceKey : String
  through : Option String
  knownAs : Option String
  deriving DecidableEq, Repr

/-- A queryable table. -/
structure Model where
  id : String
  name : String
  tableName : String
  fields : List Field
  associations : List Association
  description : String
  deriving DecidableEq, Repr

/-- The field with an id, else the one backed by a column of that name. -/
def Model.field? (m : Model) (id : String) : Option Field :=
  match m.fields.find? fun f => f.id == id with
  | some f => some f
  | none => m.fields.find? fun f => f.columnName == some id

/-- The ids of the primary key fields. -/
def Model.primaryKeys (m : Model) : List String := (m.fields.filter (·.primaryKey)).map (·.id)

/-- A field as it is served. -/
def Field.toJson (f : Field) : Json :=
  .obj [("id", .str f.id), ("label", .str f.label), ("column_name", .str f.backingColumn),
    ("type", .str f.type.code), ("raw_type", .str f.rawType), ("nullable", .bool f.nullable),
    ("primary_key", .bool f.primaryKey)]

/-- An association as it is served. -/
def Association.toJson (a : Association) : Json :=
  .obj [("kind", .str a.kind), ("target_model", .str a.targetModel), ("foreign_key", .str a.foreignKey),
    ("source_key", .str a.sourceKey), ("through", Json.ofText? a.through), ("alias", Json.ofText? a.knownAs)]

/-- A model as it is served. -/
def Model.toJson (m : Model) : Json :=
  .obj [("id", .str m.id), ("name", .str m.name), ("table_name", .str m.tableName),
    ("description", .str m.description), ("primary_keys", Json.ofTexts m.primaryKeys),
    ("primary_key", Json.ofText? m.primaryKeys.head?), ("fields", .arr (m.fields.map Field.toJson)),
    ("associations", .arr (m.associations.map Association.toJson))]

end AdhocReport.Schema
