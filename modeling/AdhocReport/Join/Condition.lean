import AdhocReport.Join.Graph
import AdhocReport.Filter.Basic
set_option autoImplicit false

/-!
# Joins: conditions

A join sets a field of one model equal to a field of another, different model, and says which side
keeps its rows when nothing matches.
-/

namespace AdhocReport.Join

/-- Which side keeps its unmatched rows. -/
inductive Kind where
  | inner
  | left
  | right
  | full
  deriving DecidableEq, Repr

/-- The codes of the kinds. -/
def Kind.codes : List (String × Kind) :=
  [("inner", .inner), ("left", .left), ("right", .right), ("full", .full)]

/-- The code of a kind. -/
def Kind.code : Kind → String
  | .inner => "inner"
  | .left => "left"
  | .right => "right"
  | .full => "full"

/-- A join between two fields. -/
structure Condition where
  id : Option String
  left : FieldRef
  right : FieldRef
  kind : Kind
  description : Option String
  deriving DecidableEq, Repr

namespace Condition

/-- The two models a join connects. -/
def models (c : Condition) : String × String := (c.left.model, c.right.model)

/-- The members of a join. -/
def known : List String :=
  ["id", "left_model", "left_field", "right_model", "right_field", "join_type", "description"]

/-- Read a join; its two models have to differ. -/
def reader : Check.Reader Condition :=
  fun j =>
    (Check.record "JoinCondition" known (fun ms =>
      (fun id lm lf rm rf kind description => Condition.mk id ⟨lm, lf⟩ ⟨rm, rf⟩ kind description)
        <$> Check.defaulted ms "id" none (Check.nullable Check.text)
        <*> Check.required ms "left_model" Check.text
        <*> Check.required ms "left_field" Check.text
        <*> Check.required ms "right_model" Check.text
        <*> Check.required ms "right_field" Check.text
        <*> Check.defaulted ms "join_type" .inner (Check.choice Kind.codes)
        <*> Check.defaulted ms "description" none (Check.nullable Check.text)) j).refusing
      fun c => if c.left.model == c.right.model then some "A join must connect two different models" else none

/-- A join as JSON. -/
def toJson (c : Condition) : Json :=
  .obj [("id", Json.ofText? c.id), ("left_model", .str c.left.model), ("left_field", .str c.left.field),
    ("right_model", .str c.right.model), ("right_field", .str c.right.field),
    ("join_type", .str c.kind.code), ("description", Json.ofText? c.description)]

end Condition

/-- An analysis as JSON. -/
def Analysis.toJson (a : Analysis) : Json :=
  .obj [("degrees", .obj (a.degrees.map fun d => (d.1, Json.ofNat d.2))),
    ("components", .arr (a.components.map Json.ofTexts)), ("primary_index", .int 0),
    ("disconnected", Json.ofTexts a.disconnected)]

/-- A needed pair as JSON. -/
def Coverage.toJson (c : Coverage) : Json :=
  .obj [("pair", Json.ofTexts [c.pair.1, c.pair.2]), ("satisfied", .bool c.satisfied)]

end AdhocReport.Join
