import AdhocReport.Check.Basic
import AdhocReport.Decimal.Fixed
import AdhocReport.Text.Blank
set_option autoImplicit false

/-!
# Checks: scalars

Texts have to be texts.  Integers may also come as truth values, as floats without a fraction, and
as texts; truth values also as zero, one and the usual words.
-/

namespace AdhocReport.Check

/-- A text. -/
def text : Reader String
  | .str s => .valid s
  | _ => .fail .textType

/-- White space around the text of an integer: the blanks without the information separators. -/
def isOuterSpace (c : Char) : Bool := Text.isBlank c && !(0x1C ≤ c.toNat && c.toNat ≤ 0x1F)

/-- The digits of an integer's text: single underscores between digits are dropped. -/
def plainDigits : Bool → List Char → Option (List Char)
  | afterDigit, [] => if afterDigit then some [] else none
  | afterDigit, c :: rest =>
    if c.isDigit then (plainDigits true rest).map (c :: ·)
    else if c == '_' && afterDigit && rest.head?.any Char.isDigit then plainDigits true rest
    else none

/-- The integer that a text denotes: a sign, digits, and a point that only zeros follow. -/
def intOfText? (s : String) : Option Int := do
  let trimmed := ((s.toList.dropWhile isOuterSpace).reverse.dropWhile isOuterSpace).reverse
  let (negative, body) := match trimmed with
    | '+' :: r => (false, r)
    | '-' :: r => (true, r)
    | r => (false, r)
  let whole := body.takeWhile (· != '.')
  let fraction := (body.dropWhile (· != '.')).drop 1
  if !fraction.all (· == '0') then none
  else
    let ds ← plainDigits false whole
    let n : Int := ds.foldl (fun n c => 10 * n + (c.toNat - 48)) 0
    pure (if negative then -n else n)

/-- The integers of 64 bits lie between this bound and its negative. -/
def wordBound : Int := 0x8000000000000000

/-- The integer that a float denotes, within 64 bits. -/
def intOfFloat (x : Float) : Checked Int :=
  if x.isNaN || x.isInf then .fail .finiteNumber
  else match Decimal.toInt? x with
    | none => .fail .intFromFloat
    | some n => if -wordBound < n ∧ n < wordBound then .valid n else .fail .intParsingSize

/-- An integer. -/
def integer : Reader Int
  | .int n => .valid n
  | .bool b => .valid (if b then 1 else 0)
  | .float x => intOfFloat x
  | .str s => match intOfText? s with
    | some n => .valid n
    | none => .fail .intParsing
  | _ => .fail .intType

/-- An integer that is at least `least`. -/
def integerFrom (least : Int) : Reader Int := fun j =>
  (integer j).andThen fun n => if least ≤ n then .valid n else .fail (.below least)

/-- The truth value of a word, in any case. -/
def truthOfText? (s : String) : Option Bool :=
  let word := String.ofList (s.toList.map Char.toLower)
  if ["true", "t", "yes", "y", "on", "1"].contains word then some true
  else if ["false", "f", "no", "n", "off", "0"].contains word then some false
  else none

/-- The truth value of a number. -/
def truthOfInt (n : Int) : Checked Bool :=
  if n == 0 then .valid false else if n == 1 then .valid true else .fail .truthParsing

/-- A truth value. -/
def truth : Reader Bool
  | .bool b => .valid b
  | .int n => if -wordBound ≤ n ∧ n < wordBound then truthOfInt n else .fail .truthType
  | .float x => match intOfFloat x with
    | .valid n => truthOfInt n
    | _ => .fail .truthType
  | .str s => match truthOfText? s with
    | some b => .valid b
    | none => .fail .truthParsing
  | _ => .fail .truthType

/-- One of a list of codes. -/
def choice {α : Type} (codes : List (String × α)) : Reader α := fun j =>
  match j with
  | .str s => match codes.lookup s with
    | some a => .valid a
    | none => .fail (.choice (codes.map (·.1)))
  | _ => .fail (.choice (codes.map (·.1)))

end AdhocReport.Check
