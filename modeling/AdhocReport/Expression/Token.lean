import AdhocReport.Expression.Basic
import AdhocReport.Decimal.Numeral
import AdhocReport.Text.Blank
set_option autoImplicit false

/-!
# Expressions: tokens

A text is cut into tokens from left to right; blanks separate them and are dropped.  Where several
kinds could start at one place the order is: blanks, reference, number, name, string, operator,
bracket, comma.  A token keeps its text and its position, counted in characters from the start.
-/

namespace AdhocReport

open AdhocReport.Text

/-- Why an expression is not accepted. -/
inductive SyntaxFault where
  | empty
  | unterminatedText
  | missingField
  | unknownOperator (c : Char)
  | extraClosing
  | missingClosing
  | unexpectedToken (text : String)
  | unexpectedName (text : String)
  | unknownFunction (text : String)
  | danglingOperator (text : String)
  | missingOperand (text : String)
  | unexpectedEnd
  deriving DecidableEq, Repr

/-- The wording of a fault. -/
def SyntaxFault.message : SyntaxFault → String
  | .empty => "Expression cannot be empty"
  | .unterminatedText => "Unterminated string literal"
  | .missingField => "Expected field identifier after '.'"
  | .unknownOperator c => "Unknown operator '" ++ String.ofList [c] ++ "'"
  | .extraClosing => "Unbalanced parentheses: unexpected ')'"
  | .missingClosing => "Unbalanced parentheses: expected ')'"
  | .unexpectedToken text => "Unexpected token '" ++ text ++ "'"
  | .unexpectedName text => "Unexpected identifier '" ++ text ++ "', expected model.field"
  | .unknownFunction text => "Unknown function '" ++ text ++ "'"
  | .danglingOperator text => "Dangling operator '" ++ text ++ "' is missing an operand"
  | .missingOperand text => "Operator '" ++ text ++ "' is missing an operand"
  | .unexpectedEnd => "Unexpected end of expression"

/-- A fault and the character position it is reported at. -/
structure SyntaxError where
  fault : SyntaxFault
  position : Nat
  deriving DecidableEq, Repr

/-- The wording of a fault with its position. -/
def SyntaxError.message (e : SyntaxError) : String :=
  e.fault.message ++ " at position " ++ Decimal.natText e.position

/-- The kinds of tokens. -/
inductive TokenKind where
  | reference
  | number
  | name
  | text
  | operator
  | opening
  | closing
  | comma
  | ending
  deriving DecidableEq, Repr

/-- A token: its kind, its text and the position of its first character. -/
structure Token where
  kind : TokenKind
  lexeme : List Char
  position : Nat
  deriving DecidableEq, Repr

/-- The text of a token. -/
def Token.written (t : Token) : String := String.ofList t.lexeme

namespace Token

/-- A letter or underscore starts a name. -/
def startsName (c : Char) : Bool := c.isAlpha || c == '_'

/-- Letters, digits and underscores continue a name. -/
def continuesName (c : Char) : Bool := c.isAlphanum || c == '_'

/-- The longest name in front, and what follows it. -/
def spanName : List Char → Option (List Char × List Char)
  | [] => none
  | c :: rest =>
    if startsName c then some (c :: rest.takeWhile continuesName, rest.dropWhile continuesName) else none

/-- A reference in front: a name, blanks, a point and directly a second name. -/
def spanReference (cs : List Char) : Option (List Char × List Char) := do
  let (model, rest) ← spanName cs
  let blanks := rest.takeWhile isBlank
  match rest.dropWhile isBlank with
  | '.' :: after => do
    let (field, after) ← spanName after
    pure (model ++ blanks ++ '.' :: field, after)
  | _ => none

/-- The longest number in front, and what follows it. -/
def spanNumber (cs : List Char) : Option (List Char × List Char) :=
  (Decimal.Numeral.scan? cs).map fun found => (cs.take (cs.length - found.2.length), found.2)

/-- The rest of a string after its opening quote, closing quote included.  A backslash takes the
next character with it, whatever it is, unless that is a line feed. -/
def spanQuoted (quote : Char) : List Char → Option (List Char × List Char)
  | [] => none
  | c :: rest =>
    if c == quote then some ([c], rest)
    else if c == '\\' then
      match rest with
      | d :: rest' =>
        if d == '\n' then none
        else (spanQuoted quote rest').map fun found => (c :: d :: found.1, found.2)
      | [] => none
    else (spanQuoted quote rest).map fun found => (c :: found.1, found.2)

/-- A string in front, in single or double quotes. -/
def spanText : List Char → Option (List Char × List Char)
  | c :: rest =>
    if c == '\'' || c == '"' then (spanQuoted c rest).map fun found => (c :: found.1, found.2) else none
  | [] => none

/-- The kind of a token of one character. -/
def singleKind? (c : Char) : Option TokenKind :=
  if c == '+' || c == '-' || c == '*' || c == '/' then some .operator
  else if c == '(' then some .opening
  else if c == ')' then some .closing
  else if c == ',' then some .comma
  else none

/-- What stands in front: a token of a kind, or blanks when the kind is missing; its characters;
and the characters after it. -/
structure Cut where
  kind : Option TokenKind
  lexeme : List Char
  rest : List Char

/-- Cut the blanks or the token in front, if there is one. -/
def cut? (cs : List Char) : Option Cut :=
  match cs with
  | [] => none
  | c :: tail =>
    if isBlank c then some ⟨none, c :: tail.takeWhile isBlank, tail.dropWhile isBlank⟩
    else match spanReference cs with
    | some (lexeme, rest) => some ⟨some .reference, lexeme, rest⟩
    | none => match spanNumber cs with
    | some (lexeme, rest) => some ⟨some .number, lexeme, rest⟩
    | none => match spanName cs with
    | some (lexeme, rest) => some ⟨some .name, lexeme, rest⟩
    | none => match spanText cs with
    | some (lexeme, rest) => some ⟨some .text, lexeme, rest⟩
    | none => (singleKind? c).map fun kind => ⟨some kind, [c], tail⟩

/-- The fault of a character at which no token starts. -/
def faultAt (c : Char) : SyntaxFault :=
  if c == '\'' || c == '"' then .unterminatedText
  else if c == '.' then .missingField
  else .unknownOperator c

/-- A name directly before a point that no field follows. -/
def Cut.dangles (cut : Cut) : Bool := cut.kind == some .name && cut.rest.head? == some '.'

/-- Cut the characters from `position` on; the fuel is at least their number. -/
def scanFrom : Nat → Nat → List Char → Except SyntaxError (List Token)
  | _, position, [] => .ok [⟨.ending, [], position⟩]
  | 0, position, _ :: _ => .ok [⟨.ending, [], position⟩]
  | fuel + 1, position, c :: tail =>
    match cut? (c :: tail) with
    | none => .error ⟨faultAt c, position⟩
    | some cut =>
      let after := position + cut.lexeme.length
      if cut.dangles then .error ⟨.missingField, after + 1⟩
      else match scanFrom fuel after cut.rest with
        | .error e => .error e
        | .ok tokens => .ok (match cut.kind with
          | some kind => ⟨kind, cut.lexeme, position⟩ :: tokens
          | none => tokens)

/-- The tokens of a text, the last one marking its end. -/
def scan (text : String) : Except SyntaxError (List Token) :=
  scanFrom text.toList.length 0 text.toList

end Token

end AdhocReport
