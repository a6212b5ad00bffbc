import AdhocReport.Expression.Basic
import AdhocReport.Json.Shown
import AdhocReport.Text.LetterCase
import AdhocReport.Text.Blank
import AdhocReport.Decimal.Fixed
set_option autoImplicit false

/-!
# Expressions as JSON records

A tree is stored and sent as nested objects with a `type`.  Reading trims ids, lowers function
names and treats missing or null arguments as none; it reports the first fault in the order: the
node's own members, then its children from left to right.
-/

namespace AdhocReport

/-- Why a JSON value is not the record of a tree. -/
inductive RecordFault where
  | notObject
  | missingIds
  | infinite
  | badLiteral (valueType : Json)
  | badBinary (operator : Json)
  | badUnary (operator : Json)
  | badFunction (name : String)
  | badArgs
  | badType (type : Json)
  /-- A list or an object stands where an operator is looked up. -/
  | compound (kind : String)
  /-- An integer beyond the range of doubles. -/
  | tooLarge

/-- The wording of a fault. -/
def RecordFault.message : RecordFault → String
  | .notObject => "Expression node must be an object"
  | .missingIds => "Column node requires model_id and field_id"
  | .infinite => "Numeric literal must be finite"
  | .badLiteral j => "Invalid literal of type " ++ j.shown
  | .badBinary j => "Unsupported binary operator " ++ j.shown
  | .badUnary j => "Unsupported unary operator " ++ j.shown
  | .badFunction name => "Unsupported function " ++ Json.shownText name
  | .badArgs => "Function args must be a list"
  | .badType j => "Unknown expression node type " ++ j.shown
  | .compound kind => "unhashable type: '" ++ kind ++ "'"
  | .tooLarge => "int too large to convert to float"

/-- The fault says that the record is malformed; the other faults are failures of the reading itself. -/
def RecordFault.isMalformed : RecordFault → Bool
  | .compound _ => false
  | .tooLarge => false
  | _ => true

namespace Literal

/-- The JSON value of a literal. -/
def toJson : Literal → Json
  | .int n => .int n
  | .float x => .float x
  | .text s => .str s
  | .truth b => .bool b

/-- The kind of a literal in its record. -/
def typeName : Literal → String
  | .int _ => "number"
  | .float _ => "number"
  | .text _ => "string"
  | .truth _ => "boolean"

end Literal

namespace Expr

mutual

/-- The record of a tree. -/
def toJson : Expr → Json
  | .column ref =>
    .obj [("type", .str "column"), ("model_id", .str ref.model), ("field_id", .str ref.field)]
  | .literal value =>
    .obj [("type", .str "literal"), ("value", value.toJson), ("value_type", .str value.typeName)]
  | .binary op left right =>
    .obj [("type", .str "binary"), ("operator", .str op.symbol), ("left", toJson left), ("right", toJson right)]
  | .unary sign operand =>
    .obj [("type", .str "unary"), ("operator", .str sign.symbol), ("argument", toJson operand)]
  | .call function args =>
    .obj [("type", .str "function"), ("name", .str function.name), ("args", .arr (argsToJson args))]
termination_by structural e => e

/-- The records of an argument list. -/
def argsToJson : List Expr → List Json
  | [] => []
  | e :: rest => toJson e :: argsToJson rest
termination_by structural args => args

end

/-- The trimmed text of a member, empty when it is none. -/
def trimmedMember (members : List (String × Json)) (key : String) : String :=
  match Json.lookup members key with
  | some (.str s) => Text.trim s
  | _ => ""

/-- A member, null when it is missing. -/
def member (members : List (String × Json)) (key : String) : Json := (Json.lookup members key).getD .null

/-- The literal of a record. -/
def literalOf (valueType value : Json) : Except RecordFault Literal :=
  match valueType, value with
  | .str "number", .int n => if (Decimal.ofInt n).isInf then .error .tooLarge else .ok (.int n)
  | .str "number", .float x => if x.isNaN || x.isInf then .error .infinite else .ok (.float x)
  | .str "string", .str s => .ok (.text s)
  | .str "boolean", .bool b => .ok (.truth b)
  | t, _ => .error (.badLiteral t)

/-- What a JSON value writes as an operator, by a table of symbols. -/
def operatorOf {α : Type} (ofSymbol? : String → Option α) (fault : Json → RecordFault) (j : Json) :
    Except RecordFault α :=
  match j with
  | .arr _ => .error (.compound "list")
  | .obj _ => .error (.compound "dict")
  | .str s => match ofSymbol? s with
    | some op => .ok op
    | none => .error (fault j)
  | _ => .error (fault j)

mutual

/-- The tree of a record; the fuel is at least the depth of the value. -/
def ofJsonWithin : Nat → Json → Except RecordFault Expr
  | 0, _ => .error .notObject
  | fuel + 1, .obj members =>
    match member members "type" with
    | .str "column" =>
      let model := trimmedMember members "model_id"
      let field := trimmedMember members "field_id"
      if model == "" || field == "" then .error .missingIds else .ok (.column ⟨model, field⟩)
    | .str "literal" => do
      let value ← literalOf (member members "value_type") (member members "value")
      .ok (.literal value)
    | .str "binary" => do
      let op ← operatorOf Operator.ofSymbol? .badBinary (member members "operator")
      let left ← ofJsonWithin fuel (member members "left")
      let right ← ofJsonWithin fuel (member members "right")
      .ok (.binary op left right)
    | .str "unary" => do
      let sign ← operatorOf Sign.ofSymbol? .badUnary (member members "operator")
      let operand ← ofJsonWithin fuel (member members "argument")
      .ok (.unary sign operand)
    | .str "function" =>
      let name := Text.lower (trimmedMember members "name")
      match Function.ofName? name with
      | none => .error (.badFunction name)
      | some function =>
        match member members "args" with
        | .null => .ok (.call function [])
        | .arr items => do
          let args ← argsOfJsonWithin fuel items
          .ok (.call function args)
        | _ => .error .badArgs
    | other => .error (.badType other)
  | _ + 1, _ => .error .notObject

/-- The trees of a list of records, up to the first fault. -/
def argsOfJsonWithin : Nat → List Json → Except RecordFault (List Expr)
  | _, [] => .ok []
  | 0, _ :: _ => .error .notObject
  | fuel + 1, j :: rest => do
    let e ← ofJsonWithin fuel j
    let others ← argsOfJsonWithin fuel rest
    .ok (e :: others)

end

end Expr

namespace Json

mutual

/-- The number of values in a value, itself included. -/
def size : Json → Nat
  | .arr items => sizeOfItems items + 1
  | .obj members => sizeOfMembers members + 1
  | _ => 1
termination_by structural j => j

/-- The number of values in a list. -/
def sizeOfItems : List Json → Nat
  | [] => 0
  | j :: rest => size j + sizeOfItems rest
termination_by structural items => items

/-- The number of values in the members of an object. -/
def sizeOfMembers : List (String × Json) → Nat
  | [] => 0
  | (_, j) :: rest => size j + sizeOfMembers rest
termination_by structural members => members

end

end Json

/-- The tree of a record. -/
def Expr.ofJson (j : Json) : Except RecordFault Expr := Expr.ofJsonWithin (j.size + 1) j

end AdhocReport
