import AdhocReport.Expression.Parser
set_option autoImplicit false

/-!
# Expressions: the grammar

The language of expressions as a relation between token sequences and trees, with one inductive
predicate for each symbol of the grammar.  Sums and products recurse on their left operand, which
makes their operators left associative, and a product stands below a sum, which makes its operators
bind tighter.  Nothing here mentions the parser; the end marker of a token list belongs to no
derivation.
-/

namespace AdhocReport

/-- The token is the operator with this symbol. -/
def Token.IsSymbol (t : Token) (symbol : String) : Prop := t.kind = .operator ∧ t.written = symbol

namespace Grammar

mutual

/-- A sum of terms. -/
inductive Expression : List Token → Expr → Prop
  | term {ts : List Token} {e : Expr} : Term ts e → Expression ts e
  | sum {ts us : List Token} {t : Token} {op : Operator} {l r : Expr} :
      Expression ts l → op = .add ∨ op = .sub → t.IsSymbol op.symbol → Term us r →
      Expression (ts ++ t :: us) (.binary op l r)

/-- A product of factors. -/
inductive Term : List Token → Expr → Prop
  | factor {ts : List Token} {e : Expr} : Factor ts e → Term ts e
  | product {ts us : List Token} {t : Token} {op : Operator} {l r : Expr} :
      Term ts l → op = .mul ∨ op = .div → t.IsSymbol op.symbol → Factor us r →
      Term (ts ++ t :: us) (.binary op l r)

/-- A primary after any number of signs. -/
inductive Factor : List Token → Expr → Prop
  | primary {ts : List Token} {e : Expr} : Primary ts e → Factor ts e
  | signed {ts : List Token} {t : Token} {sign : Sign} {e : Expr} :
      t.IsSymbol sign.symbol → Factor ts e → Factor (t :: ts) (.unary sign e)

/-- A literal, a reference, a call or a bracketed expression. -/
inductive Primary : List Token → Expr → Prop
  | number {t : Token} : t.kind = .number → Primary [t] (.literal t.numberValue)
  | text {t : Token} : t.kind = .text → Primary [t] (.literal (.text t.textValue))
  | reference {t : Token} : t.kind = .reference → Primary [t] (.column t.fieldRef)
  | truth {t : Token} {b : Bool} :
      t.kind = .name → Text.lower t.written = (if b then "true" else "false") →
      Primary [t] (.literal (.truth b))
  | call {name opening closing : Token} {f : Function} {ts : List Token} {args : List Expr} :
      name.kind = .name → Text.lower name.written = f.name → opening.kind = .opening →
      Arguments ts args → closing.kind = .closing →
      Primary (name :: opening :: (ts ++ [closing])) (.call f args)
  | bracketed {opening closing : Token} {ts : List Token} {e : Expr} :
      opening.kind = .opening → Expression ts e → closing.kind = .closing →
      Primary (opening :: (ts ++ [closing])) e

/-- The arguments of a call, possibly none. -/
inductive Arguments : List Token → List Expr → Prop
  | none : Arguments [] []
  | some {ts : List Token} {args : List Expr} : Listed ts args → Arguments ts args

/-- One or more expressions with a comma between any two. -/
inductive Listed : List Token → List Expr → Prop
  | last {ts : List Token} {e : Expr} : Expression ts e → Listed ts [e]
  | more {ts us : List Token} {t : Token} {e : Expr} {args : List Expr} :
      Expression ts e → t.kind = .comma → Listed us args → Listed (ts ++ t :: us) (e :: args)

end

/-! ## The tokens of a derivation -/

/-- The sequence begins with a token that is no closing bracket, and no end marker is in it. -/
def Operand (ts : List Token) : Prop :=
  (∃ t us, ts = t :: us ∧ t.kind ≠ .closing) ∧ ∀ t ∈ ts, t.kind ≠ .ending

theorem Operand.append {ts us : List Token} (h : Operand ts) (hus : ∀ t ∈ us, t.kind ≠ .ending) :
    Operand (ts ++ us) := by
  obtain ⟨⟨t, rest, rfl, ht⟩, hts⟩ := h
  refine ⟨⟨t, rest ++ us, rfl, ht⟩, fun u hu => ?_⟩
  rcases List.mem_append.mp hu with hu | hu
  · exact hts u hu
  · exact hus u hu

theorem Operand.cons {t : Token} {ts : List Token} (ht : t.kind ≠ .closing) (ht' : t.kind ≠ .ending)
    (hts : ∀ u ∈ ts, u.kind ≠ .ending) : Operand (t :: ts) := by
  refine ⟨⟨t, ts, rfl, ht⟩, fun u hu => ?_⟩
  rcases List.mem_cons.mp hu with rfl | hu
  · exact ht'
  · exact hts u hu

/-- A separating token joins two operands to one. -/
theorem Operand.joined {ts us : List Token} {t : Token} (h : Operand ts) (ht : t.kind ≠ .ending)
    (hus : Operand us) : Operand (ts ++ t :: us) := by
  refine h.append fun u hu => ?_
  rcases List.mem_cons.mp hu with rfl | hu
  · exact ht
  · exact hus.2 u hu

theorem not_ending_of_kind {t : Token} {kind : TokenKind} (h : t.kind = kind) (hk : kind ≠ .ending) :
    t.kind ≠ .ending := by
  rw [h]; exact hk

mutual

theorem Expression.operand {ts : List Token} {e : Expr} : Expression ts e → Operand ts
  | .term h => h.operand
  | .sum hl _ ht hr => hl.operand.joined (not_ending_of_kind ht.1 (by decide)) hr.operand

theorem Term.operand {ts : List Token} {e : Expr} : Term ts e → Operand ts
  | .factor h => h.operand
  | .product hl _ ht hr => hl.operand.joined (not_ending_of_kind ht.1 (by decide)) hr.operand

theorem Factor.operand {ts : List Token} {e : Expr} : Factor ts e → Operand ts
  | .primary h => h.operand
  | .signed ht h => by
    have hkind := ht.1
    exact .cons (by simp [hkind]) (by simp [hkind]) h.operand.2

theorem Primary.operand {ts : List Token} {e : Expr} : Primary ts e → Operand ts
  | .number h => .cons (by simp [h]) (by simp [h]) (by simp)
  | .text h => .cons (by simp [h]) (by simp [h]) (by simp)
  | .reference h => .cons (by simp [h]) (by simp [h]) (by simp)
  | .truth h _ => .cons (by simp [h]) (by simp [h]) (by simp)
  | .call hname _ hopen hargs hclose => by
    have hts := hargs.no_ending
    refine .cons (by simp [hname]) (by simp [hname]) fun u hu => ?_
    rcases List.mem_cons.mp hu with rfl | hu
    · simp [hopen]
    · rcases List.mem_append.mp hu with hu | hu
      · exact hts u hu
      · rw [List.mem_singleton.mp hu, hclose]; decide
  | .bracketed hopen h hclose => by
    have hts := h.operand.2
    refine .cons (by simp [hopen]) (by simp [hopen]) fun u hu => ?_
    rcases List.mem_append.mp hu with hu | hu
    · exact hts u hu
    · rw [List.mem_singleton.mp hu, hclose]; decide

theorem Arguments.no_ending {ts : List Token} {args : List Expr} :
    Arguments ts args → ∀ t ∈ ts, t.kind ≠ .ending
  | .none => by simp
  | .some h => h.operand.2

theorem Listed.operand {ts : List Token} {args : List Expr} : Listed ts args → Operand ts
  | .last h => h.operand
  | .more h ht hs => h.operand.joined (not_ending_of_kind ht (by decide)) hs.operand

end

end Grammar

end AdhocReport
