import AdhocReport.Sql.Scalar
import AdhocReport.Sql.Period
import AdhocReport.Sql.Name
import AdhocReport.Decimal.Notation
set_option autoImplicit false

/-!
# SQL: fragments

A fragment is statement text with values left open.  Closing it writes the values in place as
literals, or hands them to the driver as parameters: SQLite takes a question mark for each,
PostgreSQL a name that is numbered per base name.
-/

namespace AdhocReport.Sql

open AdhocReport.Query

/-- A value of a statement. -/
structure BoundValue where
  /-- What its parameter is named after. -/
  base : String
  value : Literal
  /-- The type is declared, so that the parameter can carry a cast. -/
  typed : Bool
  deriving DecidableEq

/-- A piece of a statement. -/
inductive Piece where
  | text (s : String)
  | value (v : BoundValue)
  deriving DecidableEq

/-- Statement text with values left open. -/
abbrev Fragment : Type := List Piece

/-- A string literal in a statement. -/
def textLiteral (d : Dialect) (s : String) : String := driverText d (quotedText s)

/-- A literal in a statement. -/
def literalText (d : Dialect) : Literal → String
  | .int n => Decimal.intText n
  | .float x => Decimal.floatText x
  | .text s => textLiteral d s
  | .truth b => match d with
    | .sqlite => if b then "1" else "0"
    | .postgresql => if b then "true" else "false"

/-- The cast that a parameter of a declared type carries. -/
def castOf : Literal → String
  | .int n => if n.natAbs < 0x80000000 then "::INTEGER" else "::BIGINT"
  | .float _ => ""
  | .text _ => "::VARCHAR"
  | .truth _ => "::BOOLEAN"

/-- A base name with blanks, percent signs, parentheses and dollar signs run together. -/
def parameterBase (name : String) : String :=
  let special : Char → Bool := fun c => c == '%' || c == '(' || c == ')' || c == ' ' || c == '$'
  let rec go : Bool → List Char → List Char
    | _, [] => []
    | after, c :: rest =>
      if special c then if after then go true rest else '_' :: go true rest
      else c :: go false rest
  String.ofList (go false name.toList)

/-- How many parameters each base name has given. -/
abbrev Counters : Type := List (String × Nat)

/-- The next number of a base name. -/
def Counters.next (c : Counters) (base : String) : Nat := (c.lookup base).getD 0 + 1

/-- Count one more parameter of a base name. -/
def Counters.bump (c : Counters) (base : String) : Counters := (base, c.next base) :: c

/-- The parameter that stands for a value. -/
def parameterText (d : Dialect) (c : Counters) (v : BoundValue) : String :=
  match d with
  | .sqlite => "?"
  | .postgresql =>
    let base := parameterBase v.base
    "%(" ++ base ++ "_" ++ Decimal.natText (c.next base) ++ ")s" ++ (if v.typed then castOf v.value else "")

/-- Write the values of a fragment in place. -/
def Fragment.inline (d : Dialect) : Fragment → String
  | [] => ""
  | .text s :: rest => s ++ Fragment.inline d rest
  | .value v :: rest => literalText d v.value ++ Fragment.inline d rest

/-- Write parameters for the values of a fragment. -/
def Fragment.bound (d : Dialect) : Counters → Fragment → String × Counters
  | c, [] => ("", c)
  | c, .text s :: rest =>
    let (t, c) := Fragment.bound d c rest
    (s ++ t, c)
  | c, .value v :: rest =>
    let (t, after) := Fragment.bound d (c.bump (parameterBase v.base)) rest
    (parameterText d c v ++ t, after)

/-- Fragments with a separator between them. -/
def Fragment.join (sep : String) : List Fragment → Fragment
  | [] => []
  | f :: [] => f
  | f :: rest => f ++ .text sep :: Fragment.join sep rest

/-- A fragment in parentheses when asked for. -/
def Fragment.parens (wanted : Bool) (f : Fragment) : Fragment :=
  if wanted then .text "(" :: f ++ [.text ")"] else f

/-- A column as a statement writes it. -/
def ColumnUse.text (d : Dialect) (c : ColumnUse) : String :=
  nameText d c.model ++ "." ++ nameText d c.column.name

/-- A string that a function takes as an argument. -/
def argument (function s : String) : Piece := .value ⟨function, .text s, true⟩

/-- A number in the arithmetic of a function. -/
def constant (base : String) (n : Int) : Piece := .value ⟨base, .int n, true⟩

/-- How tightly an operator binds in the arithmetic of a function. -/
def operatorPrecedence : Operator → Nat
  | .add => 7
  | .sub => 7
  | .mul => 8
  | .div => 8

/-- The expression has to stand in parentheses to the left of an operator. -/
def DateTerm.needsParens (op : Operator) : DateTerm → Bool
  | .operation inner _ _ => operatorPrecedence inner ≤ operatorPrecedence op
  | _ => false

/-- An expression over the date in a column, as SQLite's functions compute it. -/
def DateTerm.fragment (c : Fragment) : DateTerm → Fragment
  | .formatted format => [.text "strftime(", argument "strftime" format, .text ", "] ++ c ++ [.text ")"]
  | .stepped steps => [.text "date("] ++ c
      ++ steps.flatMap (fun s => [.text ", ", argument "date" s.text]) ++ [.text ")"]
  | .integer e => .text "CAST(" :: fragment c e ++ [.text " AS INTEGER)"]
  | .operation op l n => Fragment.parens (l.needsParens op) (fragment c l)
      ++ [.text (" " ++ op.symbol ++ " "), constant "param" n]
  | .printed format a b => [.text "printf(", argument "printf" format, .text ", "] ++ fragment c a
      ++ .text ", " :: fragment c b ++ [.text ")"]

/-- The period of a date. -/
def periodFragment (d : Dialect) (bucket : TimeBucket) (c : Fragment) : Fragment :=
  match d with
  | .sqlite => (periodTerm bucket).fragment c
  | .postgresql => [.text "date_trunc(", argument "date_trunc" bucket.code, .text ", "] ++ c ++ [.text ")"]

/-- An aggregate over an operand. -/
def aggregateFragment (a : Aggregation) (operand : Fragment) : Fragment :=
  match a with
  | .countDistinct => .text "count(DISTINCT " :: operand ++ [.text ")"]
  | a => .text (a.code ++ "(") :: operand ++ [.text ")"]

/-- A quotient whose divisor is never zero; SQLite adds a real zero to make the division real. -/
def quotientFragment (d : Dialect) (left right : Fragment) : Fragment :=
  let divisor : Fragment := .text "nullif(" :: right ++ [.text ", ", .value ⟨"nullif", .int 0, true⟩, .text ")"]
  match d with
  | .sqlite => left ++ .text " / (" :: divisor ++ [.text " + 0.0)"]
  | .postgresql => left ++ .text " / CAST(" :: divisor ++ [.text " AS NUMERIC)"]

namespace Scalar

mutual

/-- An expression as a statement writes it. -/
def fragment (d : Dialect) : Scalar → Fragment
  | .column c => [.text (c.text d)]
  | .literal v => [.value ⟨"param", v, true⟩]
  | .negated e => .text "-" :: Fragment.parens (e.needsParens 8 none) (fragment d e)
  | .binary op l r =>
    Fragment.parens (l.needsParens op.precedence (some op)) (fragment d l)
      ++ .text (" " ++ op.symbol ++ " ")
      :: Fragment.parens (r.needsParens op.precedence (some op)) (fragment d r)
  | .quotient l r => quotientFragment d (Fragment.parens (l.needsParens 8 none) (fragment d l)) (fragment d r)
  | .call f args => .text (functionName d f ++ "(") :: Fragment.join ", " (fragments d args) ++ [.text ")"]
  | .aggregate a e => aggregateFragment a (fragment d e)
  | .period b c => periodFragment d b [.text (c.text d)]
termination_by structural e => e

/-- Arguments as a statement writes them. -/
def fragments (d : Dialect) : List Scalar → List Fragment
  | [] => []
  | e :: rest => fragment d e :: fragments d rest
termination_by structural args => args

end

end Scalar

end AdhocReport.Sql
