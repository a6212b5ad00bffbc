import AdhocReport.Json.Basic
import AdhocReport.Json.Writer
import AdhocReport.Decimal.Notation
import AdhocReport.Text.Printable
set_option autoImplicit false

/-!
# Values shown inside messages

A message that quotes a value shows texts in single quotes, or in double quotes when they hold a
single quote and no double one; the named values as `None`, `True` and `False`; lists in square
brackets and objects in braces.
-/

namespace AdhocReport.Json

/-- The quote a text is shown in. -/
def shownQuote (cs : List Char) : Char :=
  if cs.contains '\'' && !cs.contains '"' then '"' else '\''

/-- A character of a shown text: the quote, backslashes and unprintable characters are escaped. -/
def shownChar (quote c : Char) : List Char :=
  if c == quote || c == '\\' then ['\\', c]
  else if c == '\n' then ['\\', 'n']
  else if c == '\r' then ['\\', 'r']
  else if c == '\t' then ['\\', 't']
  else if Text.isPrintable c then [c]
  else if c.toNat < 0x100 then '\\' :: 'x' :: hexDigits 2 c.toNat
  else if c.toNat < 0x10000 then '\\' :: 'u' :: hexDigits 4 c.toNat
  else '\\' :: 'U' :: hexDigits 8 c.toNat

/-- A text in quotes, with escapes. -/
def shownText (s : String) : String :=
  let cs := s.toList
  let quote := shownQuote cs
  String.ofList (quote :: cs.flatMap (shownChar quote) ++ [quote])

/-- Pieces joined by a separator. -/
def joined (sep : String) : List String → String
  | [] => ""
  | s :: [] => s
  | s :: rest => s ++ sep ++ joined sep rest

mutual

/-- A value as messages show it. -/
def shown : Json → String
  | .null => "None"
  | .bool b => if b then "True" else "False"
  | .int n => Decimal.intText n
  | .float x => Decimal.floatText x
  | .str s => shownText s
  | .arr items => "[" ++ joined ", " (shownItems items) ++ "]"
  | .obj members => "\x7b" ++ joined ", " (shownMembers members) ++ "\x7d"
termination_by structural j => j

/-- The items of a list as messages show them. -/
def shownItems : List Json → List String
  | [] => []
  | j :: rest => shown j :: shownItems rest
termination_by structural items => items

/-- The members of an object as messages show them. -/
def shownMembers : List (String × Json) → List String
  | [] => []
  | (k, j) :: rest => (shownText k ++ ": " ++ shown j) :: shownMembers rest
termination_by structural members => members

end

end AdhocReport.Json
