import AdhocReport.Expression.Token
import AdhocReport.Text.Word
set_option autoImplicit false

/-!
# Expressions: mentioned models

A saved expression that no longer parses still tells which models it depends on.  The scan blanks
out quoted strings and then looks for a name, a point and a name, with blanks allowed around the
point, that does not start inside a word or after a point.
-/

namespace AdhocReport.Expr

open AdhocReport.Text

/-- Replace each quoted string by one blank; a quote that opens no string stays.  The fuel is at
least the number of characters. -/
def blankQuoted : Nat → List Char → List Char
  | _, [] => []
  | 0, cs => cs
  | fuel + 1, c :: rest =>
    match Token.spanText (c :: rest) with
    | some (_, after) => ' ' :: blankQuoted fuel after
    | none => c :: blankQuoted fuel rest

/-- A name, a point and a name in front, with blanks around the point: the first name and what
follows the second. -/
def mention? (cs : List Char) : Option (List Char × List Char) := do
  let (model, rest) ← Token.spanName cs
  match rest.dropWhile isBlank with
  | '.' :: after => do
    let (_, after) ← Token.spanName (after.dropWhile isBlank)
    pure (model, after)
  | _ => none

/-- The models of the mentions from here on; `before` is the character passed last. -/
def mentionsFrom : Nat → Option Char → List Char → List (List Char)
  | _, _, [] => []
  | 0, _, _ => []
  | fuel + 1, before, c :: rest =>
    let inside := before.any fun b => isWord b || b == '.'
    match if inside then none else mention? (c :: rest) with
    | some (model, after) => model :: mentionsFrom fuel (some 'x') after
    | none => mentionsFrom fuel (some c) rest

/-- The models a text mentions, in code point order. -/
def mentionedModels (text : String) : List String :=
  let cs := text.toList
  let bare := blankQuoted cs.length cs
  Collection.sortedSet ((mentionsFrom bare.length none bare).map String.ofList)

end AdhocReport.Expr
