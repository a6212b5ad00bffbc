import AdhocReport.Expression.Token
import AdhocReport.Text.LetterCase
set_option autoImplicit false

/-!
# Expressions: the parser

Recursive descent over tokens, with the usual precedence and left association:

    expression := term (("+" | "-") term)*
    term       := factor (("*" | "/") factor)*
    factor     := ("+" | "-") factor | primary
    primary    := NUMBER | STRING | "true" | "false" | REFERENCE
                | NAME "(" [expression ("," expression)*] ")"
                | "(" expression ")"

Each step takes the tokens that are left and returns a tree with the tokens after it.  The fuel
bounds the depth of calls; `parse` gives more than any token list can use.
-/

namespace AdhocReport

/-- A step of the parser: a tree and the tokens after it. -/
abbrev ParseStep : Type := Except SyntaxError (Expr × List Token)

namespace Token

/-- The operator a token writes. -/
def operator? (t : Token) : Option Operator :=
  if t.kind == .operator then Operator.ofSymbol? t.written else none

/-- The additive operator a token writes. -/
def additive? (t : Token) : Option Operator :=
  match t.operator? with
  | some .add => some .add
  | some .sub => some .sub
  | _ => none

/-- The multiplicative operator a token writes. -/
def multiplicative? (t : Token) : Option Operator :=
  match t.operator? with
  | some .mul => some .mul
  | some .div => some .div
  | _ => none

/-- The sign a token writes. -/
def sign? (t : Token) : Option Sign :=
  if t.kind == .operator then Sign.ofSymbol? t.written else none

/-- The value of a number: an integer if neither point nor exponent is written, else a float. -/
def numberValue (t : Token) : Literal :=
  match Decimal.Numeral.scan? t.lexeme with
  | some (n, _) => if n.isWhole then .int (Text.digitsValue n.whole) else .float n.toFloat
  | none => .int 0

/-- Drop each backslash that stands before a character other than a line feed. -/
def unescape : List Char → List Char
  | '\\' :: c :: rest => if c == '\n' then '\\' :: c :: unescape rest else c :: unescape rest
  | c :: rest => c :: unescape rest
  | [] => []

/-- The value of a string: what stands between its quotes, without the escaping backslashes. -/
def textValue (t : Token) : String := String.ofList (unescape (t.lexeme.drop 1).dropLast)

/-- The field a reference names: the model up to the point, its trailing blanks dropped, and the
field after it. -/
def fieldRef (t : Token) : FieldRef :=
  ⟨String.ofList (Text.trimEnd (t.lexeme.takeWhile (· != '.'))),
   String.ofList ((t.lexeme.dropWhile (· != '.')).drop 1)⟩

end Token

namespace Parser

/-- The fault of reaching the end where an operand is expected: an operator just before the end is
blamed, else the end itself. -/
def endError (last : Option Token) (position : Nat) : SyntaxError :=
  match last with
  | some t =>
    if t.kind == .operator then ⟨.danglingOperator t.written, t.position⟩ else ⟨.unexpectedEnd, position⟩
  | none => ⟨.unexpectedEnd, position⟩

/-- A token that starts no operand. -/
def operandError (last : Option Token) (t : Token) : SyntaxError :=
  match t.kind with
  | .ending => endError last t.position
  | .closing => ⟨.extraClosing, t.position⟩
  | .operator => ⟨.missingOperand t.written, t.position⟩
  | _ => ⟨.unexpectedToken t.written, t.position⟩

/-- The closing bracket in front, and the tokens after it. -/
def closing : List Token → Except SyntaxError (List Token)
  | t :: rest => if t.kind == .closing then .ok rest else .error ⟨.missingClosing, t.position⟩
  | [] => .error ⟨.missingClosing, 0⟩

mutual

/-- A sum of terms. -/
def expression (last : Option Token) : Nat → List Token → ParseStep
  | 0, _ => .error ⟨.unexpectedEnd, 0⟩
  | fuel + 1, ts => do
    let (left, rest) ← term last fuel ts
    sums last fuel left rest

/-- The additive operators and terms after `left`. -/
def sums (last : Option Token) : Nat → Expr → List Token → ParseStep
  | 0, _, _ => .error ⟨.unexpectedEnd, 0⟩
  | _ + 1, left, [] => .ok (left, [])
  | fuel + 1, left, t :: ts =>
    match t.additive? with
    | none => .ok (left, t :: ts)
    | some op => do
      let (right, rest) ← term last fuel ts
      sums last fuel (.binary op left right) rest

/-- A product of factors. -/
def term (last : Option Token) : Nat → List Token → ParseStep
  | 0, _ => .error ⟨.unexpectedEnd, 0⟩
  | fuel + 1, ts => do
    let (left, rest) ← factor last fuel ts
    products last fuel left rest

/-- The multiplicative operators and factors after `left`. -/
def products (last : Option Token) : Nat → Expr → List Token → ParseStep
  | 0, _, _ => .error ⟨.unexpectedEnd, 0⟩
  | _ + 1, left, [] => .ok (left, [])
  | fuel + 1, left, t :: ts =>
    match t.multiplicative? with
    | none => .ok (left, t :: ts)
    | some op => do
      let (right, rest) ← factor last fuel ts
      products last fuel (.binary op left right) rest

/-- Signs before a primary. -/
def factor (last : Option Token) : Nat → List Token → ParseStep
  | 0, _ => .error ⟨.unexpectedEnd, 0⟩
  | _ + 1, [] => .error ⟨.unexpectedEnd, 0⟩
  | fuel + 1, t :: ts =>
    match t.sign? with
    | some sign => do
      let (operand, rest) ← factor last fuel ts
      .ok (.unary sign operand, rest)
    | none => primary last fuel t ts

/-- A literal, a reference, a call or a bracketed expression that starts with the token `t`. -/
def primary (last : Option Token) : Nat → Token → List Token → ParseStep
  | 0, _, _ => .error ⟨.unexpectedEnd, 0⟩
  | fuel + 1, t, ts =>
    match t.kind with
    | .number => .ok (.literal t.numberValue, ts)
    | .text => .ok (.literal (.text t.textValue), ts)
    | .reference => .ok (.column t.fieldRef, ts)
    | .name => named last fuel t ts
    | .opening => do
      let (inner, rest) ← expression last fuel ts
      let rest ← closing rest
      .ok (inner, rest)
    | _ => .error (operandError last t)

/-- A call when a bracket follows the name `t`, else one of the two truth values. -/
def named (last : Option Token) : Nat → Token → List Token → ParseStep
  | 0, _, _ => .error ⟨.unexpectedEnd, 0⟩
  | fuel + 1, t, ts =>
    let lowered := Text.lower t.written
    match ts with
    | next :: rest =>
      if next.kind == .opening then
        match Function.ofName? lowered with
        | none => .error ⟨.unknownFunction t.written, t.position⟩
        | some f => do
          let (args, rest) ← arguments last fuel rest
          let rest ← closing rest
          .ok (.call f args, rest)
      else if lowered == "true" then .ok (.literal (.truth true), next :: rest)
      else if lowered == "false" then .ok (.literal (.truth false), next :: rest)
      else .error ⟨.unexpectedName t.written, t.position⟩
    | [] => .error ⟨.unexpectedName t.written, t.position⟩

/-- The arguments of a call: none when a closing bracket follows at once. -/
def arguments (last : Option Token) : Nat → List Token → Except SyntaxError (List Expr × List Token)
  | 0, _ => .error ⟨.unexpectedEnd, 0⟩
  | _ + 1, [] => .ok ([], [])
  | fuel + 1, t :: ts =>
    if t.kind == .closing then .ok ([], t :: ts)
    else do
      let (first, rest) ← expression last fuel (t :: ts)
      let (others, rest) ← moreArguments last fuel rest
      .ok (first :: others, rest)

/-- The arguments after the first: one for each comma. -/
def moreArguments (last : Option Token) : Nat → List Token → Except SyntaxError (List Expr × List Token)
  | 0, _ => .error ⟨.unexpectedEnd, 0⟩
  | _ + 1, [] => .ok ([], [])
  | fuel + 1, t :: ts =>
    if t.kind == .comma then do
      let (next, rest) ← expression last fuel ts
      let (others, rest) ← moreArguments last fuel rest
      .ok (next :: others, rest)
    else .ok ([], t :: ts)

end

/-- More fuel than the calls on a token list can use: a token is read within six nested calls. -/
def fuelFor (ts : List Token) : Nat := 8 * ts.length + 8

/-- The tree of a token list that ends with its end marker. -/
def ofTokens (ts : List Token) : Except SyntaxError Expr := do
  let last := (ts.dropLast).getLast?
  let (e, rest) ← expression last (fuelFor ts) ts
  match rest with
  | t :: _ =>
    match t.kind with
    | .ending => .ok e
    | .closing => .error ⟨.extraClosing, t.position⟩
    | _ => .error ⟨.unexpectedToken t.written, t.position⟩
  | [] => .ok e

end Parser

namespace Expr

/-- The tree of an expression text; a missing or blank text is refused. -/
def parse (text : Option String) : Except SyntaxError Expr :=
  match text with
  | none => .error ⟨.empty, 0⟩
  | some s =>
    if Text.isBlankText s then .error ⟨.empty, 0⟩
    else do
      let tokens ← Token.scan s
      Parser.ofTokens tokens

end Expr

end AdhocReport
