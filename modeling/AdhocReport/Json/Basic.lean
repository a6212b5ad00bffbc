import AdhocReport.Collection.Sorting
set_option autoImplicit false

/-!
# JSON values

Requests, stored payloads and answers are JSON values.  An integer of any size and a float are
different values.  The members of an object are listed in the order in which their keys first
appeared, and a repeated key keeps its last value.
-/

namespace AdhocReport

/-- A JSON value. -/
inductive Json where
  | null
  | bool (b : Bool)
  | int (n : Int)
  | float (x : Float)
  | str (s : String)
  | arr (items : List Json)
  | obj (members : List (String × Json))
  deriving Inhabited

namespace Json

/-- Set the value of a key: in its place if the key is there, else at the end. -/
def put (members : List (String × Json)) (key : String) (value : Json) : List (String × Json) :=
  match members with
  | [] => [(key, value)]
  | (k, v) :: rest => if k = key then (k, value) :: rest else (k, v) :: put rest key value

/-- The object with the given members, later ones replacing earlier ones of the same key. -/
def ofMembers (members : List (String × Json)) : Json :=
  .obj (members.foldl (fun acc m => put acc m.1 m.2) [])

/-- The value of a key among the members. -/
def lookup (members : List (String × Json)) (key : String) : Option Json :=
  (members.find? fun m => m.1 == key).map (·.2)

/-- The value of a key, if this is an object that has it. -/
def get? (j : Json) (key : String) : Option Json :=
  match j with
  | .obj members => lookup members key
  | _ => none

/-- The value of a key, null when it is missing. -/
def getD (j : Json) (key : String) : Json := (j.get? key).getD .null

/-- The text, if this is one. -/
def asText? : Json → Option String
  | .str s => some s
  | _ => none

/-- The items, if this is a list. -/
def asItems? : Json → Option (List Json)
  | .arr items => some items
  | _ => none

/-- The members, if this is an object. -/
def asMembers? : Json → Option (List (String × Json))
  | .obj members => some members
  | _ => none

/-- The value is null. -/
def isNull : Json → Bool
  | .null => true
  | _ => false

/-- A text, or null when there is none. -/
def ofText? (s : Option String) : Json := (s.map Json.str).getD .null

/-- A list of texts. -/
def ofTexts (xs : List String) : Json := .arr (xs.map .str)

/-- A natural number. -/
def ofNat (n : Nat) : Json := .int n

mutual

/-- The value with the members of every object in it sorted by key. -/
def sortKeys : Json → Json
  | .arr items => .arr (sortKeysItems items)
  | .obj members => .obj (Collection.sortBy (fun a b => Collection.textLe a.1 b.1) (sortKeysMembers members))
  | .null => .null
  | .bool b => .bool b
  | .int n => .int n
  | .float x => .float x
  | .str s => .str s
termination_by structural j => j

/-- The items with the members of every object in them sorted by key. -/
def sortKeysItems : List Json → List Json
  | [] => []
  | j :: rest => j.sortKeys :: sortKeysItems rest
termination_by structural items => items

/-- The members, in their order, with the objects in their values sorted by key. -/
def sortKeysMembers : List (String × Json) → List (String × Json)
  | [] => []
  | (k, j) :: rest => (k, j.sortKeys) :: sortKeysMembers rest
termination_by structural members => members

end

mutual

/-- A value with null for the numbers that are not finite. -/
def finite : Json → Json
  | .float x => if x.isNaN || x.isInf then .null else .float x
  | .arr items => .arr (finiteItems items)
  | .obj members => .obj (finiteMembers members)
  | .null => .null
  | .bool b => .bool b
  | .int n => .int n
  | .str s => .str s
termination_by structural j => j

/-- The items with null for the numbers that are not finite. -/
def finiteItems : List Json → List Json
  | [] => []
  | j :: rest => finite j :: finiteItems rest
termination_by structural items => items

/-- The members with null for the numbers that are not finite. -/
def finiteMembers : List (String × Json) → List (String × Json)
  | [] => []
  | (k, j) :: rest => (k, finite j) :: finiteMembers rest
termination_by structural members => members

end

mutual

/-- The two values are equal as JSON: floats by their bits, members in the same order. -/
def same : Json → Json → Bool
  | .null, .null => true
  | .bool a, .bool b => a == b
  | .int a, .int b => a == b
  | .float a, .float b => a.toBits == b.toBits
  | .str a, .str b => a == b
  | .arr a, .arr b => sameItems a b
  | .obj a, .obj b => sameMembers a b
  | _, _ => false
termination_by structural j => j

/-- The lists are equal item by item. -/
def sameItems : List Json → List Json → Bool
  | [], [] => true
  | a :: as, b :: bs => a.same b && sameItems as bs
  | _, _ => false
termination_by structural items => items

/-- The members are equal one by one. -/
def sameMembers : List (String × Json) → List (String × Json) → Bool
  | [], [] => true
  | (k, a) :: as, (l, b) :: bs => k == l && a.same b && sameMembers as bs
  | _, _ => false
termination_by structural members => members

end

end Json

end AdhocReport
