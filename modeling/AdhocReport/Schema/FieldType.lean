import AdhocReport.Text.LetterCase
set_option autoImplicit false

/-!
# Schema: semantic field types

The type of a field decides which filters, metrics and dimensions apply to it.  It is read off the
column's raw type and the field's name: a primary key and a field named like an id is an identifier
whatever its raw type; numeric columns are told apart by hints in their names.
-/

namespace AdhocReport

/-- The semantic type of a field. -/
inductive FieldType where
  | identifier
  | number
  | currency
  | string
  | date
  | percentage
  | boolean
  deriving DecidableEq, Repr

namespace FieldType

/-- All types with the codes they are stored under. -/
def codes : List (String × FieldType) :=
  [("identifier", .identifier), ("number", .number), ("currency", .currency), ("string", .string),
   ("date", .date), ("percentage", .percentage), ("boolean", .boolean)]

/-- The code of a type. -/
def code : FieldType → String
  | .identifier => "identifier"
  | .number => "number"
  | .currency => "currency"
  | .string => "string"
  | .date => "date"
  | .percentage => "percentage"
  | .boolean => "boolean"

/-- The type with a code. -/
def ofCode? (s : String) : Option FieldType := codes.lookup s

/-- The types a metric can aggregate. -/
def isNumeric : FieldType → Bool
  | .number => true
  | .currency => true
  | .percentage => true
  | _ => false

end FieldType

namespace Schema

/-- The characters of `part` stand at the front. -/
def startsWith : List Char → List Char → Bool
  | [], _ => true
  | _ :: _, [] => false
  | p :: ps, c :: cs => p == c && startsWith ps cs

/-- The characters of `part` stand somewhere in the text. -/
def holds (part : List Char) : List Char → Bool
  | [] => part.isEmpty
  | c :: cs => startsWith part (c :: cs) || holds part cs

/-- One of the hints stands in the text. -/
def holdsAny (hints : List String) (s : String) : Bool :=
  hints.any fun h => holds h.toList s.toList

/-- The characters of `part` stand at the end. -/
def endsWith (part cs : List Char) : Bool := startsWith part.reverse cs.reverse

/-- A lower-case letter or a digit before a final `Id`; one line feed may follow. -/
def hasCamelId (cs : List Char) : Bool :=
  let ends : List Char → Bool := fun r =>
    match r with
    | 'd' :: 'I' :: c :: _ => c.isLower || c.isDigit
    | _ => false
  ends cs.reverse || (match cs.reverse with
    | '\n' :: r => ends r
    | _ => false)

/-- The name is `id`, ends in `_id`, or ends in `Id` after a lower-case letter or a digit. -/
def isIdentifierName (name : String) : Bool :=
  let lowered := (Text.lower name).toList
  lowered == "id".toList || endsWith "_id".toList lowered || hasCamelId name.toList

/-- The semantic type of a column. -/
def resolveType (rawType : Option String) (name : String) (primaryKey : Bool) : FieldType :=
  if primaryKey || isIdentifierName name then .identifier
  else
    let type := Text.lower (rawType.getD "")
    let lowered := Text.lower name
    if holdsAny ["bool"] type then .boolean
    else if holdsAny ["date", "time"] type then .date
    else if holdsAny ["money", "currency"] type then .currency
    else if holdsAny ["int", "num", "dec", "float", "double", "real", "serial"] type then
      if holdsAny ["rate", "pct", "percent"] lowered then .percentage
      else if holdsAny ["amount", "amt", "price", "total", "fee", "cost", "balance"] lowered then .currency
      else .number
    else .string

end Schema

end AdhocReport
