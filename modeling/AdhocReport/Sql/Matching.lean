import AdhocReport.Sql.Value
set_option autoImplicit false

/-!
# SQL: pattern matching

A pattern is a text in which a percent sign stands for any text and an underscore for any character.
A backslash takes the special sense from the character behind it.
-/

namespace AdhocReport.Sql

/-- An item of a pattern. -/
inductive PatternItem where
  | anything
  | anyChar
  | char (c : Char)
  deriving DecidableEq, Repr

/-- The items of a pattern; none if a backslash stands at its end. -/
def patternItems? : List Char → Option (List PatternItem)
  | [] => some []
  | c :: rest =>
    if c = '\\' then
      match rest with
      | [] => none
      | d :: rest => (patternItems? rest).map (.char d :: ·)
    else if c = '%' then (patternItems? rest).map (.anything :: ·)
    else if c = '_' then (patternItems? rest).map (.anyChar :: ·)
    else (patternItems? rest).map (.char c :: ·)

/-- Some rest of the text satisfies the test. -/
def anyRest (test : List Char → Bool) : List Char → Bool
  | [] => test []
  | c :: rest => test (c :: rest) || anyRest test rest

/-- The items match the whole text. -/
def itemsMatch : List PatternItem → List Char → Bool
  | [], cs => cs.isEmpty
  | .anything :: items, cs => anyRest (itemsMatch items) cs
  | .anyChar :: items, cs => match cs with
    | [] => false
    | _ :: rest => itemsMatch items rest
  | .char c :: items, cs => match cs with
    | [] => false
    | d :: rest => c == d && itemsMatch items rest

/-- The pattern matches the whole text. -/
def patternMatches (pattern text : List Char) : Bool :=
  match patternItems? pattern with
  | some items => itemsMatch items text
  | none => false

/-- Capital ASCII letters in lower case; other characters are kept. -/
def lowerText (s : String) : List Char := s.toList.map Char.toLower

/-- The pattern matches the text of a value, letter case of ASCII left aside. -/
def likeValue (pattern : String) (v : Value) : Bool :=
  !v.isNull && patternMatches (lowerText pattern) (lowerText v.written)

end AdhocReport.Sql
