set_option autoImplicit false

/-!
# SQL: quoting

Identifiers stand in double quotes and string literals in single quotes; a quote inside is written
twice.  A backslash is an ordinary character.
-/

namespace AdhocReport.Sql

/-- Write each `quote` twice and every other character once. -/
def doubled (quote : Char) : List Char → List Char
  | [] => []
  | c :: rest => if c = quote then quote :: quote :: doubled quote rest else c :: doubled quote rest

/-- A text between quotes. -/
def quotedWith (quote : Char) (cs : List Char) : List Char := quote :: doubled quote cs ++ [quote]

/-- A quoted identifier. -/
def quotedName (name : String) : String := String.ofList (quotedWith '"' name.toList)

/-- A string literal. -/
def quotedText (text : String) : String := String.ofList (quotedWith '\'' text.toList)

/-- The dialects that statements are written in. -/
inductive Dialect where
  | sqlite
  | postgresql
  deriving DecidableEq, Repr

end AdhocReport.Sql
