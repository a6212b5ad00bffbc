import AdhocReport.Text.Word
set_option autoImplicit false

/-!
# SQL: text with parameters

Text that is handed over as a part of a statement may name parameters: a colon and word characters
after it, unless the colon itself stands after a colon, a word character or a backslash.  A backslash
before a colon is dropped when the text is written.  Escaping every colon makes the text stand for
itself.
-/

namespace AdhocReport.Sql.Template

open AdhocReport.Text

/-- A character of parameter names. -/
def isNameChar (c : Char) : Bool := isWord c || c == '$'

/-- Write a backslash before each colon. -/
def escape : List Char → List Char
  | [] => []
  | c :: rest => if c = ':' then '\\' :: ':' :: escape rest else c :: escape rest

/-- A colon after this character does not name a parameter. -/
def guardsColon (c : Char) : Bool := c == ':' || c == '\\' || isNameChar c

/-- The names of the parameters in a text; `before` is the character passed last. -/
def parameters : Option Char → List Char → List (List Char)
  | _, [] => []
  | before, c :: rest =>
    let name := rest.takeWhile isNameChar
    if c = ':' && !before.any guardsColon && !name.isEmpty then name :: parameters (some c) rest
    else parameters (some c) rest

/-- A backslash before this text escapes a colon: the text starts with one, and the name characters
after it are not followed by another. -/
def opensEscape : List Char → Bool
  | ':' :: rest => (rest.dropWhile isNameChar).head? != some ':'
  | _ => false

/-- Write the text: the backslash of each escaped colon is dropped. -/
def render : List Char → List Char
  | [] => []
  | c :: rest => if c = '\\' && opensEscape rest then render rest else c :: render rest

end AdhocReport.Sql.Template
