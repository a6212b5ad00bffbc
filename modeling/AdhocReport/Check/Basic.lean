import AdhocReport.Check.Issue
set_option autoImplicit false

/-!
# Checks: combining them

A check gives a value, or all issues found, or stops at a failure that is no issue.  Checks of the
members of a record are combined side by side, so that one issue does not hide another; a rule over
the whole record runs only when every member is valid.
-/

namespace AdhocReport.Check

/-- The outcome of a check. -/
inductive Checked (α : Type) where
  | valid (value : α)
  | invalid (issues : List Issue)
  | stopped (fault : RecordFault)

namespace Checked

variable {α β : Type}

/-- Change the value. -/
def map (f : α → β) : Checked α → Checked β
  | .valid a => .valid (f a)
  | .invalid is => .invalid is
  | .stopped e => .stopped e

/-- Check two things side by side: the earlier failure stops, issues of both are kept. -/
def ap : Checked (α → β) → Checked α → Checked β
  | .stopped e, _ => .stopped e
  | _, .stopped e => .stopped e
  | .valid f, .valid a => .valid (f a)
  | .valid _, .invalid is => .invalid is
  | .invalid is, .valid _ => .invalid is
  | .invalid is, .invalid js => .invalid (is ++ js)

instance : Functor Checked where
  map := map

instance : Applicative Checked where
  pure := valid
  seq f a := ap f (a ())

/-- Go on with a valid value. -/
def andThen (c : Checked α) (f : α → Checked β) : Checked β :=
  match c with
  | .valid a => f a
  | .invalid is => .invalid is
  | .stopped e => .stopped e

/-- A single issue with the value itself. -/
def fail (kind : IssueKind) : Checked α := .invalid [⟨[], kind⟩]

/-- Report the issues one step further out. -/
def under (s : Step) : Checked α → Checked α
  | .invalid is => .invalid (is.map fun i => ⟨s :: i.path, i.kind⟩)
  | .valid a => .valid a
  | .stopped e => .stopped e

/-- Refuse a valid value that a rule objects to. -/
def refusing (c : Checked α) (objection : α → Option String) : Checked α :=
  c.andThen fun a => match objection a with
    | some text => fail (.rejected text)
    | none => .valid a

end Checked

/-- A check of a JSON value. -/
abbrev Reader (α : Type) : Type := Json → Checked α

/-- The members of an object. -/
abbrev Members : Type := List (String × Json)

variable {α β : Type}

/-- A member that has to be there. -/
def required (ms : Members) (key : String) (r : Reader α) : Checked α :=
  match Json.lookup ms key with
  | some j => (r j).under (.key key)
  | none => (Checked.fail .missing).under (.key key)

/-- A member with a value for when it is missing. -/
def defaulted (ms : Members) (key : String) (default : α) (r : Reader α) : Checked α :=
  match Json.lookup ms key with
  | some j => (r j).under (.key key)
  | none => .valid default

/-- Null, or a value. -/
def nullable (r : Reader α) : Reader (Option α)
  | .null => .valid none
  | j => (r j).map some

/-- Check the items in turn, numbering them from `n`. -/
def itemsFrom (r : Reader α) : Nat → List Json → Checked (List α)
  | _, [] => .valid []
  | n, j :: rest => (((r j).under (.index n)).map List.cons).ap (itemsFrom r (n + 1) rest)

/-- A list. -/
def list (r : Reader α) : Reader (List α)
  | .arr items => itemsFrom r 0 items
  | _ => .fail .listType

/-- A list with at least one item. -/
def nonEmptyList (r : Reader α) : Reader (List α) := fun j =>
  (list r j).andThen fun items => if items.isEmpty then .fail (.tooShort 1 0) else .valid items

/-- Check the values of an object's members in turn. -/
def membersOf (r : Reader α) : Members → Checked (List (String × α))
  | [] => .valid []
  | (k, j) :: rest => ((((r j).under (.key k)).map fun a => ((k, a) :: ·))).ap (membersOf r rest)

/-- An object used as a table. -/
def table (r : Reader α) : Reader (List (String × α))
  | .obj ms => membersOf r ms
  | _ => .fail .objectType

/-- An object, kept as it is. -/
def object : Reader Members
  | .obj ms => .valid ms
  | _ => .fail .objectType

/-- A list of two values. -/
def pair (r : Reader α) : Reader (α × α)
  | .arr [] => ((Checked.fail .missing).under (.index 0)).ap ((Checked.fail (α := α) .missing).under (.index 1))
  | .arr [a] => (((r a).under (.index 0)).map Prod.mk).ap ((Checked.fail .missing).under (.index 1))
  | .arr [a, b] => (((r a).under (.index 0)).map Prod.mk).ap ((r b).under (.index 1))
  | .arr items => .fail (.tooLong 2 items.length)
  | _ => .fail .pairType

/-- The issues of members that are not known. -/
def extraIssues (known : List String) (ms : Members) : List Issue :=
  (ms.filter fun m => !known.contains m.1).map fun m => ⟨[.key m.1], .extraForbidden⟩

/-- Add issues after those of a check. -/
def Checked.withIssues (c : Checked α) (more : List Issue) : Checked α :=
  if more.isEmpty then c
  else match c with
    | .valid _ => .invalid more
    | .invalid is => .invalid (is ++ more)
    | .stopped e => .stopped e

/-- An object with the known members and no others. -/
def record (title : String) (known : List String) (build : Members → Checked α) : Reader α
  | .obj ms => (build ms).withIssues (extraIssues known ms)
  | _ => .fail (.recordType title)

/-- The known members that an object gives, in code point order. -/
def givenMembers (known : List String) (j : Json) : List String :=
  match j with
  | .obj ms => Collection.sortedSet ((ms.map (·.1)).filter known.contains)
  | _ => []

end AdhocReport.Check
