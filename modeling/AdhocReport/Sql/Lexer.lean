import AdhocReport.Text.Blank
import AdhocReport.Text.Word
set_option autoImplicit false

/-!
# SQL: lexemes

Before a statement text is sent it is split into statements the way a lenient reader does it: at each
semicolon outside parentheses, quotes and comments.  Inside quotes a quote may be written twice or
after a backslash; where that reading leaves the quote open, the last such choice is taken back.
-/

namespace AdhocReport.Sql

open AdhocReport.Text

/-- A lexeme, as far as splitting is concerned. -/
inductive Lexeme where
  | newline
  | blank
  /-- A comment to the end of the line. -/
  | lineComment
  | comment
  | semicolon
  | opening
  | closing
  | word (w : List Char)
  | other
  deriving DecidableEq, Repr

namespace Lexeme

/-- The lexeme is blank. -/
def isBlank : Lexeme → Bool
  | .newline => true
  | .blank => true
  | _ => false

/-- The lexeme is blank or a comment. -/
def isSilent : Lexeme → Bool
  | .lineComment => true
  | .comment => true
  | l => l.isBlank

end Lexeme

/-- What follows the quote that closes a quoted text. -/
def afterQuote (quote : Char) : List Char → Option (List Char)
  | [] => none
  | c :: rest =>
    if c = quote then
      match rest with
      | d :: after => if d = quote then (afterQuote quote after).orElse fun _ => some rest else some rest
      | [] => some rest
    else if c = '\\' then
      match rest with
      | d :: after =>
        if d = quote then (afterQuote quote after).orElse fun _ => afterQuote quote (d :: after)
        else afterQuote quote (d :: after)
      | [] => none
    else afterQuote quote rest

/-- What follows the end of the line. -/
def afterLine : List Char → List Char
  | [] => []
  | '\r' :: '\n' :: rest => rest
  | c :: rest => if c = '\n' ∨ c = '\r' then rest else afterLine rest

/-- What follows the mark that closes a comment. -/
def afterComment : List Char → Option (List Char)
  | [] => none
  | '*' :: '/' :: rest => some rest
  | _ :: rest => afterComment rest

/-- What follows the mark that closes a name in back quotes or accents. -/
def afterMark (mark : Char) : List Char → Option (List Char)
  | [] => none
  | c :: rest =>
    if c = mark then
      match rest with
      | d :: after => if d = mark then (afterMark mark after).orElse fun _ => some rest else some rest
      | [] => some rest
    else afterMark mark rest

/-- What follows the bracket that closes a bracketed name. -/
def afterBracket : List Char → Option (List Char)
  | [] => none
  | c :: rest => if c = ']' then some rest else if c = '[' then none else afterBracket rest

/-- What follows the next occurrence of a tag between dollar signs. -/
def afterTag (tag : List Char) : List Char → Option (List Char)
  | [] => none
  | c :: rest => if tag.isPrefixOf (c :: rest) then some ((c :: rest).drop tag.length) else afterTag tag rest

/-- A text between dollar tags in front: what follows it. -/
def afterDollar (cs : List Char) : Option (List Char) :=
  match cs with
  | '$' :: rest =>
    let name := rest.takeWhile isWord
    if name.head?.any Char.isDigit then none
    else match rest.dropWhile isWord with
    | '$' :: body => afterTag ('$' :: name ++ ['$']) body
    | _ => none
  | _ => none

/-- A word in front with the hash and dollar signs in it. -/
def spanWord (cs : List Char) : List Char × List Char :=
  (cs.takeWhile fun c => isWord c || c == '$' || c == '#', cs.dropWhile fun c => isWord c || c == '$' || c == '#')

/-- Whether a word reads as a name: a parenthesis or a point follows it, or a point stands before. -/
def isNameUse (before : Option Char) (after : List Char) : Bool :=
  after.head? == some '(' || (after.dropWhile isBlank).head? == some '.' || before == some '.'

/-- A bracket opens a name unless a word or a closing bracket stands before it. -/
def opensName (before : Option Char) : Bool := !before.any fun c => isWord c || c == ']' || c == ')'

/-- The first lexeme of a text and what follows it. -/
def Lexeme.next (before : Option Char) (c : Char) (rest : List Char) : Lexeme × List Char :=
  let orOther : Lexeme → Option (List Char) → Lexeme × List Char := fun l after =>
    match after with
    | some r => (l, r)
    | none => (.other, rest)
  if c == '\n' then (.newline, rest)
  else if c == '\r' then (.newline, if rest.head? == some '\n' then rest.drop 1 else rest)
  else if c == '-' && rest.head? == some '-' then (.lineComment, afterLine (rest.drop 1))
  else if c == '#' && rest.head? == some ' ' then (.lineComment, afterLine (rest.drop 1))
  else if c == '/' && rest.head? == some '*' then orOther .comment (afterComment (rest.drop 1))
  else if Text.isBlank c then (.blank, rest)
  else if c == '\x60' || c == Char.ofNat 0xB4 then orOther .other (afterMark c rest)
  else if c == '$' && !before.any (fun b => isWord b || b == '"' || b == '$') then
    orOther .other (afterDollar (c :: rest))
  else if c == '\'' || c == '"' then orOther .other (afterQuote c rest)
  else if c == '[' && opensName before then orOther .other (afterBracket rest)
  else if c == ';' then (.semicolon, rest)
  else if c == '(' then (.opening, rest)
  else if c == ')' then (.closing, rest)
  else if isWord c then
    let (w, after) := spanWord (c :: rest)
    (if isNameUse before after then .other else .word w, after)
  else (.other, rest)

/-- The lexemes of a text.  The fuel is at least the number of characters; a lexeme that would leave
the text as it is ends the scan. -/
def lexemes : Nat → Option Char → List Char → List Lexeme
  | 0, _, _ => []
  | _ + 1, _, [] => []
  | fuel + 1, before, c :: rest =>
    let (l, after) := Lexeme.next before c rest
    let passed := (c :: rest).take (rest.length + 1 - after.length)
    l :: lexemes fuel passed.getLast? after

/-- How a lexeme changes the depth of parentheses. -/
def depthChange : Lexeme → Int
  | .opening => 1
  | .closing => -1
  | _ => 0

/-- Split lexemes into statements: `ended` is set after a semicolon, until something other than a
blank or a line comment follows. -/
def splitFrom (depth : Int) (ended : Bool) (current : List Lexeme) : List Lexeme → List (List Lexeme)
  | [] => [current.reverse]
  | l :: rest =>
    if ended && !(l == .blank || l == .lineComment) then
      let depth := depthChange l
      current.reverse :: splitFrom depth (l == .semicolon && depth ≤ 0) [l] rest
    else
      let depth := depth + depthChange l
      splitFrom depth (ended || (l == .semicolon && depth ≤ 0)) (l :: current) rest

/-- The statements of a text that hold more than blanks. -/
def statements (text : String) : List (List Lexeme) :=
  let cs := text.toList
  (splitFrom 0 false [] (lexemes cs.length none cs)).filter fun ls => ls.any fun l => !l.isBlank

/-- The words that start a statement which changes data. -/
def changeWords : List String := ["INSERT", "UPDATE", "DELETE", "MERGE", "UPSERT", "REPLACE"]

/-- The word as keywords are compared. -/
def upperWord (w : List Char) : String := String.ofList (w.map Char.toUpper)

/-- The first word outside parentheses that selects or changes data. -/
def mainWord? (depth : Int) : List Lexeme → Option String
  | [] => none
  | l :: rest =>
    let after := mainWord? (depth + depthChange l) rest
    match l with
    | .word w =>
      let u := upperWord w
      if depth ≤ 0 && (u == "SELECT" || changeWords.contains u) then some u else after
    | _ => after

/-- The statement is a query: its first lexeme is `SELECT`, or `WITH` and its main word is. -/
def isSelect (ls : List Lexeme) : Bool :=
  match ls.dropWhile Lexeme.isSilent with
  | .word w :: rest =>
    let u := upperWord w
    u == "SELECT" || (u == "WITH" && mainWord? 0 rest == some "SELECT")
  | _ => false

end AdhocReport.Sql
