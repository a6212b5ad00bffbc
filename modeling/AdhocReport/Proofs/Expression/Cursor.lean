import AdhocReport.Expression.Parser
import Mathlib.Data.Nat.Notation
set_option autoImplicit false

/-!
# Expressions: reading by positions

The parser goes along an array of tokens by a position that it advances, and compares no position with the
length of the array.  So there are more ways to stop than with a tree or with a syntax error: a position behind
the end marker, a token whose text does not convert to a value, and a reading that does not end.  Here the
scanner and the parser are written with positions, and each of these ways is an outcome of its own.
-/

namespace AdhocReport

/-- Why a reading stops without a value. -/
inductive Halt where
  /-- The text is refused with a syntax error. -/
  | refused (e : SyntaxError)
  /-- A position behind the last token, or behind the last character, is read. -/
  | pastEnd
  /-- The text of a token does not convert to a value. -/
  | unreadable
  /-- The fuel does not reach to the end of the reading. -/
  | spent

namespace Cursor

/-- The entry at a position. -/
def at? {α : Type} (entries : List α) (i : ℕ) : Except Halt α :=
  match entries[i]? with
  | some a => .ok a
  | none => .error .pastEnd

/-- A conversion that has to succeed. -/
def converted {α : Type} : Option α → Except Halt α
  | some a => .ok a
  | none => .error .unreadable

/-! ## Scanning -/

/-- Whether the piece is a name with a point at the position behind it, where only a text that goes on is read. -/
def dangles (cs : List Char) (cut : Token.Cut) (after : ℕ) : Except Halt Bool :=
  if cut.kind == some .name && decide (after < cs.length) then do
    let c ← at? cs after
    .ok (c == '.')
  else .ok false

/-- The tokens of the characters from a position on. -/
def scanFrom (cs : List Char) : ℕ → ℕ → Except Halt (List Token)
  | 0, _ => .error .spent
  | fuel + 1, position =>
    if position < cs.length then
      match Token.cut? (cs.drop position) with
      | none => do
        let c ← at? cs position
        .error (.refused ⟨Token.faultAt c, position⟩)
      | some cut => do
        let after := position + cut.lexeme.length
        let dangling ← dangles cs cut after
        if dangling then .error (.refused ⟨.missingField, after + 1⟩)
        else do
          let tokens ← scanFrom cs fuel after
          .ok (match cut.kind with
            | some kind => ⟨kind, cut.lexeme, position⟩ :: tokens
            | none => tokens)
    else .ok [⟨.ending, [], cs.length⟩]

/-! ## Parsing -/

/-- The value of a number: the float of a text with a point or an exponent mark, else the integer. -/
def numberOf (t : Token) : Except Halt Literal :=
  if t.lexeme.any fun c => c == '.' || Decimal.isExponentMark c then do
    let x ← converted (Decimal.readFloat? t.written)
    .ok (.float x)
  else do
    let n ← converted (Decimal.readInt? t.written)
    .ok (.int n)

/-- The field of a reference, which is cut in two at its first point. -/
def referenceOf (t : Token) : Except Halt FieldRef :=
  converted (if t.lexeme.contains '.' then some t.fieldRef else none)

variable (tokens : List Token)

/-- The token before a position, if it is not the first. -/
def before (i : ℕ) : Except Halt (Option Token) :=
  if i = 0 then .ok none
  else do
    let t ← at? tokens (i - 1)
    .ok (some t)

/-- The position behind a closing bracket. -/
def closing (i : ℕ) : Except Halt ℕ := do
  let t ← at? tokens i
  if t.kind == .closing then .ok (i + 1) else .error (.refused ⟨.missingClosing, t.position⟩)

mutual

/-- A sum of terms from a position on, and the position behind it. -/
def expression : ℕ → ℕ → Except Halt (Expr × ℕ)
  | 0, _ => .error .spent
  | fuel + 1, i => do
    let (left, i) ← term fuel i
    sums fuel left i
termination_by structural fuel => fuel

/-- The additive operators and terms after `left`. -/
def sums : ℕ → Expr → ℕ → Except Halt (Expr × ℕ)
  | 0, _, _ => .error .spent
  | fuel + 1, left, i => do
    let t ← at? tokens i
    match t.additive? with
    | none => .ok (left, i)
    | some op => do
      let (right, i) ← term fuel (i + 1)
      sums fuel (.binary op left right) i
termination_by structural fuel => fuel

/-- A product of factors. -/
def term : ℕ → ℕ → Except Halt (Expr × ℕ)
  | 0, _ => .error .spent
  | fuel + 1, i => do
    let (left, i) ← factor fuel i
    products fuel left i
termination_by structural fuel => fuel

/-- The multiplicative operators and factors after `left`. -/
def products : ℕ → Expr → ℕ → Except Halt (Expr × ℕ)
  | 0, _, _ => .error .spent
  | fuel + 1, left, i => do
    let t ← at? tokens i
    match t.multiplicative? with
    | none => .ok (left, i)
    | some op => do
      let (right, i) ← factor fuel (i + 1)
      products fuel (.binary op left right) i
termination_by structural fuel => fuel

/-- Signs before a primary. -/
def factor : ℕ → ℕ → Except Halt (Expr × ℕ)
  | 0, _ => .error .spent
  | fuel + 1, i => do
    let t ← at? tokens i
    match t.sign? with
    | some sign => do
      let (operand, i) ← factor fuel (i + 1)
      .ok (.unary sign operand, i)
    | none => primary fuel i
termination_by structural fuel => fuel

/-- A literal, a reference, a call or a bracketed expression. -/
def primary : ℕ → ℕ → Except Halt (Expr × ℕ)
  | 0, _ => .error .spent
  | fuel + 1, i => do
    let t ← at? tokens i
    match t.kind with
    | .number => do
      let value ← numberOf t
      .ok (.literal value, i + 1)
    | .text => .ok (.literal (.text t.textValue), i + 1)
    | .reference => do
      let ref ← referenceOf t
      .ok (.column ref, i + 1)
    | .name => named fuel t (i + 1)
    | .opening => do
      let (inner, i) ← expression fuel (i + 1)
      let i ← closing tokens i
      .ok (inner, i)
    | .ending => do
      let previous ← before tokens i
      .error (.refused (Parser.endError previous t.position))
    | _ => .error (.refused (Parser.operandError none t))
termination_by structural fuel => fuel

/-- A call when a bracket follows the name `t`, else one of the two truth values. -/
def named : ℕ → Token → ℕ → Except Halt (Expr × ℕ)
  | 0, _, _ => .error .spent
  | fuel + 1, t, i => do
    let next ← at? tokens i
    if next.kind == .opening then
      match Function.ofName? (Text.lower t.written) with
      | none => .error (.refused ⟨.unknownFunction t.written, t.position⟩)
      | some f => do
        let (args, i) ← arguments fuel (i + 1)
        let i ← closing tokens i
        .ok (.call f args, i)
    else if Text.lower t.written == "true" then .ok (.literal (.truth true), i)
    else if Text.lower t.written == "false" then .ok (.literal (.truth false), i)
    else .error (.refused ⟨.unexpectedName t.written, t.position⟩)
termination_by structural fuel => fuel

/-- The arguments of a call: none when a closing bracket follows at once. -/
def arguments : ℕ → ℕ → Except Halt (List Expr × ℕ)
  | 0, _ => .error .spent
  | fuel + 1, i => do
    let t ← at? tokens i
    if t.kind == .closing then .ok ([], i)
    else do
      let (first, i) ← expression fuel i
      let (others, i) ← moreArguments fuel i
      .ok (first :: others, i)
termination_by structural fuel => fuel

/-- The arguments after the first: one for each comma. -/
def moreArguments : ℕ → ℕ → Except Halt (List Expr × ℕ)
  | 0, _ => .error .spent
  | fuel + 1, i => do
    let t ← at? tokens i
    if t.kind == .comma then do
      let (next, i) ← expression fuel (i + 1)
      let (others, i) ← moreArguments fuel i
      .ok (next :: others, i)
    else .ok ([], i)
termination_by structural fuel => fuel

end

/-- The tree of an array of tokens: an expression and then the end marker. -/
def ofTokens (fuel : ℕ) : Except Halt Expr := do
  let (e, i) ← expression tokens fuel 0
  let t ← at? tokens i
  match t.kind with
  | .ending => .ok e
  | .closing => .error (.refused ⟨.extraClosing, t.position⟩)
  | _ => .error (.refused ⟨.unexpectedToken t.written, t.position⟩)

/-- The tree of an expression text; a missing or blank text is refused. -/
def parse (fuel : ℕ) (text : Option String) : Except Halt Expr :=
  match text with
  | none => .error (.refused ⟨.empty, 0⟩)
  | some s =>
    if Text.isBlankText s then .error (.refused ⟨.empty, 0⟩)
    else do
      let tokens ← scanFrom s.toList fuel 0
      ofTokens tokens fuel

/-- The tree or the syntax error of a text.  Only syntax errors are caught. -/
def tryParse (fuel : ℕ) (text : Option String) : Except Halt (Option Expr × Option SyntaxError) :=
  match parse fuel text with
  | .ok e => .ok (some e, none)
  | .error (.refused e) => .ok (none, some e)
  | .error halt => .error halt

end Cursor

end AdhocReport
