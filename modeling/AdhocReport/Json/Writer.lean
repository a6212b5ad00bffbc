import AdhocReport.Json.Basic
import AdhocReport.Decimal.Notation
set_option autoImplicit false

/-!
# JSON text

A value is written on one line in ASCII: every other character is escaped by its 16-bit units in
lower-case hexadecimal.  Two layouts differ in the blanks after separators, and the canonical text
sorts the keys of every object.
-/

namespace AdhocReport.Json

/-- What separates items and what separates a key from its value. -/
structure Separators where
  item : String
  key : String

/-- No insignificant white space. -/
def compact : Separators := ⟨",", ":"⟩

/-- A blank after each separator. -/
def spaced : Separators := ⟨", ", ": "⟩

/-- The lower-case hexadecimal digit of a number below sixteen. -/
def hexDigit (n : Nat) : Char := if n < 10 then Char.ofNat (48 + n) else Char.ofNat (87 + n)

/-- A number below `16 ^ width` in `width` hexadecimal digits. -/
def hexDigits : Nat → Nat → List Char
  | 0, _ => []
  | width + 1, n => hexDigits width (n / 16) ++ [hexDigit (n % 16)]

/-- A 16-bit unit as an escape. -/
def unitEscape (n : Nat) : List Char := '\\' :: 'u' :: hexDigits 4 n

/-- The escape of a character that does not stand for itself. -/
def escapeChar (c : Char) : List Char :=
  if c.toNat < 0x10000 then unitEscape c.toNat
  else
    unitEscape (0xD800 + (c.toNat - 0x10000) / 0x400) ++ unitEscape (0xDC00 + (c.toNat - 0x10000) % 0x400)

/-- One character of a written string. -/
def writeChar (c : Char) : List Char :=
  if c == '"' then ['\\', '"']
  else if c == '\\' then ['\\', '\\']
  else if c == '\n' then ['\\', 'n']
  else if c == '\r' then ['\\', 'r']
  else if c == '\t' then ['\\', 't']
  else if c.toNat == 0x0C then ['\\', 'f']
  else if c.toNat == 0x08 then ['\\', 'b']
  else if 0x20 ≤ c.toNat ∧ c.toNat ≤ 0x7E then [c]
  else escapeChar c

/-- A string in double quotes. -/
def writeText (s : String) : List Char := '"' :: s.toList.flatMap writeChar ++ ['"']

/-- The text of a float; the values that are not finite have names of their own. -/
def writeFloat (x : Float) : String :=
  if x.isNaN then "NaN"
  else if x.isInf then if Decimal.isNegative x then "-Infinity" else "Infinity"
  else Decimal.floatText x

mutual

/-- The text of a value, its members in their order. -/
def write (sep : Separators) : Json → List Char
  | .null => "null".toList
  | .bool b => (if b then "true" else "false").toList
  | .int n => (Decimal.intText n).toList
  | .float x => (writeFloat x).toList
  | .str s => writeText s
  | .arr items => '[' :: writeItems sep items ++ [']']
  | .obj members => '\x7b' :: writeMembers sep members ++ ['\x7d']
termination_by structural j => j

/-- The items of a list, separated. -/
def writeItems (sep : Separators) : List Json → List Char
  | [] => []
  | j :: rest =>
    write sep j ++ (match rest with
      | [] => []
      | _ :: _ => sep.item.toList ++ writeItems sep rest)
termination_by structural items => items

/-- The members of an object, separated. -/
def writeMembers (sep : Separators) : List (String × Json) → List Char
  | [] => []
  | (k, j) :: rest =>
    writeText k ++ sep.key.toList ++ write sep j ++ (match rest with
      | [] => []
      | _ :: _ => sep.item.toList ++ writeMembers sep rest)
termination_by structural members => members

end

/-- The text of a value with a blank after each separator, members in their order. -/
def text (j : Json) : String := String.ofList (j.write spaced)

/-- The text that orders result rows: keys sorted, a blank after each separator. -/
def orderText (j : Json) : String := String.ofList (j.sortKeys.write spaced)

/-- The canonical text: keys sorted and no insignificant white space. -/
def canonical (j : Json) : String := String.ofList (j.sortKeys.write compact)

end AdhocReport.Json
