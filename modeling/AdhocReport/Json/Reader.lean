import AdhocReport.Json.Basic
import AdhocReport.Decimal.Fixed
set_option autoImplicit false

/-!
# Reading JSON text

A recursive reader over characters.  Beyond the standard grammar it accepts `NaN`, `Infinity` and
`-Infinity`; a number with a point or an exponent is a float, any other an integer.  Every step
returns the characters it left.
-/

namespace AdhocReport.Json

/-- White space between tokens. -/
def isSpace (c : Char) : Bool := c == ' ' || c == '\t' || c == '\n' || c == '\r'

/-- Drop the white space in front. -/
def skipSpace (cs : List Char) : List Char := cs.dropWhile isSpace

/-- The value of a hexadecimal digit. -/
def hexValue? (c : Char) : Option Nat :=
  if '0' ≤ c ∧ c ≤ '9' then some (c.toNat - 48)
  else if 'a' ≤ c ∧ c ≤ 'f' then some (c.toNat - 87)
  else if 'A' ≤ c ∧ c ≤ 'F' then some (c.toNat - 55)
  else none

/-- Four hexadecimal digits. -/
def readUnit : List Char → Option (Nat × List Char)
  | a :: b :: c :: d :: rest => do
    let w ← hexValue? a
    let x ← hexValue? b
    let y ← hexValue? c
    let z ← hexValue? d
    pure (((w * 16 + x) * 16 + y) * 16 + z, rest)
  | _ => none

/-- The character of an escape other than a unit escape. -/
def simpleEscape? : Char → Option Char
  | '"' => some '"'
  | '\\' => some '\\'
  | '/' => some '/'
  | 'b' => some (Char.ofNat 8)
  | 'f' => some (Char.ofNat 12)
  | 'n' => some '\n'
  | 'r' => some '\r'
  | 't' => some '\t'
  | _ => none

/-- The low half of a surrogate pair, when an escape of one follows. -/
def readLowUnit : List Char → Option (Nat × List Char)
  | '\\' :: 'u' :: rest => do
    let (low, rest) ← readUnit rest
    if 0xDC00 ≤ low ∧ low ≤ 0xDFFF then pure (low, rest) else none
  | _ => none

/-- The characters of a string after its opening quote; `acc` holds those read, last first.  A character is a Unicode
scalar value, so the escape of an unpaired surrogate is read as U+FFFD if it is a high one and as U+0000 if it is a
low one; readers whose strings can hold surrogates keep it. -/
def readString : Nat → List Char → List Char → Option (String × List Char)
  | 0, _, _ => none
  | fuel + 1, acc, cs =>
    match cs with
    | [] => none
    | '"' :: rest => some (String.ofList acc.reverse, rest)
    | '\\' :: 'u' :: rest => do
      let (unit, rest) ← readUnit rest
      if 0xD800 ≤ unit ∧ unit ≤ 0xDBFF then
        match readLowUnit rest with
        | some (low, rest) =>
          readString fuel (Char.ofNat (0x10000 + (unit - 0xD800) * 0x400 + (low - 0xDC00)) :: acc) rest
        | none => readString fuel (Char.ofNat 0xFFFD :: acc) rest
      else readString fuel (Char.ofNat unit :: acc) rest
    | '\\' :: c :: rest => do
      let e ← simpleEscape? c
      readString fuel (e :: acc) rest
    | c :: rest => if c.toNat < 0x20 then none else readString fuel (c :: acc) rest

/-- The digits in front, and what follows them. -/
def spanDigits (cs : List Char) : List Char × List Char :=
  (cs.takeWhile Char.isDigit, cs.dropWhile Char.isDigit)

/-- The number written by ASCII digits. -/
def digitsNat (ds : List Char) : Nat := ds.foldl (fun n c => 10 * n + (c.toNat - 48)) 0

/-- The double written by a mantissa of `whole` and `fraction` digits and a power of ten. -/
def decimalFloat (whole fraction : List Char) (exponent : Int) : Float :=
  let m := digitsNat (whole ++ fraction)
  let e := exponent - fraction.length
  if m == 0 then 0.0
  else if e > 400 then Float.ofScientific 1 false 400
  else if e < -(1200 : Int) - (whole ++ fraction).length then 0.0
  else Float.ofScientific m (e < 0) e.natAbs

/-- The exponent part, if one is there: a mark, a sign and digits. -/
def readExponent (cs : List Char) : Option (Int × List Char) :=
  match cs with
  | mark :: rest =>
    if mark == 'e' || mark == 'E' then
      let (negative, body) := match rest with
        | '+' :: r => (false, r)
        | '-' :: r => (true, r)
        | r => (false, r)
      let (ds, after) := spanDigits body
      if ds.isEmpty then none
      else some (if negative then -(digitsNat ds : Int) else digitsNat ds, after)
    else none
  | [] => none

/-- A number without its sign. -/
def readMagnitude (negative : Bool) (cs : List Char) : Option (Json × List Char) :=
  let (whole, rest) := match cs with
    | '0' :: r => (['0'], r)
    | _ => spanDigits cs
  if whole.isEmpty then none
  else
    let (fraction, rest) := match rest with
      | '.' :: r =>
        let (ds, after) := spanDigits r
        if ds.isEmpty then ([], rest) else (ds, after)
      | _ => ([], rest)
    let signed (x : Float) : Float := if negative then -x else x
    match readExponent rest with
    | some (e, rest) => some (.float (signed (decimalFloat whole fraction e)), rest)
    | none =>
      if fraction.isEmpty then
        let n : Int := digitsNat whole
        some (.int (if negative then -n else n), rest)
      else some (.float (signed (decimalFloat whole fraction 0)), rest)

/-- Drop the characters of `word` from the front, if they are there. -/
def dropWord : List Char → List Char → Option (List Char)
  | [], cs => some cs
  | _ :: _, [] => none
  | w :: ws, c :: cs => if w == c then dropWord ws cs else none

/-- The named values. -/
def words : List (List Char × Json) :=
  [("null".toList, .null), ("true".toList, .bool true), ("false".toList, .bool false),
   ("NaN".toList, .float (0.0 / 0.0)), ("Infinity".toList, .float (1.0 / 0.0)),
   ("-Infinity".toList, .float (-1.0 / 0.0))]

/-- A named value or a number. -/
def readScalar (cs : List Char) : Option (Json × List Char) :=
  match words.findSome? fun w => (dropWord w.1 cs).map fun rest => (w.2, rest) with
  | some found => some found
  | none =>
    match cs with
    | '-' :: rest => readMagnitude true rest
    | _ => readMagnitude false cs

mutual

/-- A value at the front of the characters. -/
def readValue : Nat → List Char → Option (Json × List Char)
  | 0, _ => none
  | fuel + 1, cs =>
    match cs with
    | '"' :: rest => do
      let (s, rest) ← readString (rest.length + 1) [] rest
      pure (.str s, rest)
    | '[' :: rest =>
      match skipSpace rest with
      | ']' :: rest => some (.arr [], rest)
      | rest => readItems fuel [] rest
    | '\x7b' :: rest =>
      match skipSpace rest with
      | '\x7d' :: rest => some (.obj [], rest)
      | rest => readMembers fuel [] rest
    | _ => readScalar cs

/-- The items of a list up to its closing bracket; `acc` holds those read, last first. -/
def readItems : Nat → List Json → List Char → Option (Json × List Char)
  | 0, _, _ => none
  | fuel + 1, acc, cs =>
    match readValue fuel cs with
    | none => none
    | some (j, rest) =>
      match skipSpace rest with
      | ',' :: rest => readItems fuel (j :: acc) (skipSpace rest)
      | ']' :: rest => some (.arr (j :: acc).reverse, rest)
      | _ => none

/-- The members of an object up to its closing brace; `acc` holds those read, last first. -/
def readMembers : Nat → List (String × Json) → List Char → Option (Json × List Char)
  | 0, _, _ => none
  | fuel + 1, acc, cs =>
    match cs with
    | '"' :: rest =>
      match readString (rest.length + 1) [] rest with
      | none => none
      | some (k, rest) =>
        match skipSpace rest with
        | ':' :: rest =>
          match readValue fuel (skipSpace rest) with
          | none => none
          | some (j, rest) =>
            match skipSpace rest with
            | ',' :: rest => readMembers fuel ((k, j) :: acc) (skipSpace rest)
            | '\x7d' :: rest => some (Json.ofMembers ((k, j) :: acc).reverse, rest)
            | _ => none
        | _ => none
    | _ => none

end

/-- The value that a whole text denotes. -/
def read? (s : String) : Option Json :=
  let cs := s.toList
  match readValue (cs.length + 1) (skipSpace cs) with
  | some (j, rest) => if (skipSpace rest).isEmpty then some j else none
  | none => none

end AdhocReport.Json
