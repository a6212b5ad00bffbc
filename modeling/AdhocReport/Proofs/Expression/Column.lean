import AdhocReport.Proofs.Expression.Reference
import Mathlib.Data.List.Chain
set_option autoImplicit false

/-!
# Expressions: columns and operands

A derivation turns each reference of its tokens into one column and makes no other, so the columns of the
tree are the references in their order.  Between two operands there is always an operator, a bracket or a
comma: no reference, number or name directly follows another one.
-/

namespace AdhocReport

namespace Token

/-- The fields that the references among some tokens name, in their order. -/
def fields (ts : List Token) : List FieldRef :=
  (ts.filter fun t => t.kind == .reference).map fieldRef

@[simp] theorem fields_nil : fields [] = [] := rfl

@[simp] theorem fields_append (ts us : List Token) : fields (ts ++ us) = fields ts ++ fields us := by
  rw [fields, List.filter_append, List.map_append]
  rfl

theorem fields_reference {t : Token} (h : t.kind = .reference) (ts : List Token) :
    fields (t :: ts) = t.fieldRef :: fields ts := by
  rw [fields, List.filter_cons_of_pos (by simp [h])]
  rfl

theorem fields_cons {t : Token} (h : t.kind ≠ .reference) (ts : List Token) : fields (t :: ts) = fields ts := by
  rw [fields, List.filter_cons_of_neg (by simp [h])]
  rfl

/-- A token of this kind is a name, or begins with one, or ends in a digit or a point. -/
def IsWordKind (kind : TokenKind) : Prop := kind = .reference ∨ kind = .number ∨ kind = .name

/-- No two tokens that follow each other run into one word. -/
def Separated (ts : List Token) : Prop :=
  ts.IsChain fun t u => ¬(IsWordKind t.kind ∧ IsWordKind u.kind)

/-- A token that is no word separates what stands on both sides. -/
theorem Separated.joined {ts us : List Token} {t : Token} (h : Separated ts) (ht : ¬IsWordKind t.kind)
    (hus : Separated us) : Separated (ts ++ t :: us) := by
  refine List.isChain_append.mpr ⟨h, List.isChain_cons.mpr ⟨fun u _ hwords => ht hwords.1, hus⟩, ?_⟩
  intro u _ v hv hwords
  rw [List.head?_cons, Option.mem_some_iff] at hv
  exact ht (hv ▸ hwords.2)

theorem Separated.tail {t : Token} {ts : List Token} (h : Separated (t :: ts)) : Separated ts :=
  (List.isChain_cons.mp h).2

theorem Separated.behind_word {t : Token} {ts : List Token} (h : Separated (t :: ts)) (ht : IsWordKind t.kind) :
    ∀ u ∈ ts.head?, ¬IsWordKind u.kind := fun u hu hword => (List.isChain_cons.mp h).1 u hu ⟨ht, hword⟩

theorem separated_singleton (t : Token) : Separated [t] := List.isChain_singleton t

theorem not_isWordKind {t : Token} {kind : TokenKind} (h : t.kind = kind)
    (hkind : kind = .operator ∨ kind = .opening ∨ kind = .closing ∨ kind = .comma) : ¬IsWordKind t.kind := by
  rw [h]
  rcases hkind with rfl | rfl | rfl | rfl <;> simp [IsWordKind]

/-! ## Positions -/

/-- The token, without the position that it was found at. -/
def unplaced (t : Token) : Token := { t with position := 0 }

theorem fields_unplaced (ts : List Token) : fields (ts.map unplaced) = fields ts := by
  rw [fields, List.filter_map, List.map_map]
  rfl

theorem Separated.unplaced {ts : List Token} (h : Separated ts) : Separated (ts.map unplaced) :=
  (List.isChain_map _).mpr h

end Token

namespace Grammar

open Token

/-! ## Columns -/

mutual

theorem Expression.columns_eq {ts : List Token} {e : Expr} : Expression ts e → e.columns = fields ts
  | .term h => h.columns_eq
  | .sum hl _ ht hr => by
    rw [Expr.columns, hl.columns_eq, hr.columns_eq, fields_append, fields_cons (by simp [ht.1])]

theorem Term.columns_eq {ts : List Token} {e : Expr} : Term ts e → e.columns = fields ts
  | .factor h => h.columns_eq
  | .product hl _ ht hr => by
    rw [Expr.columns, hl.columns_eq, hr.columns_eq, fields_append, fields_cons (by simp [ht.1])]

theorem Factor.columns_eq {ts : List Token} {e : Expr} : Factor ts e → e.columns = fields ts
  | .primary h => h.columns_eq
  | .signed ht h => by
    rw [Expr.columns, h.columns_eq, fields_cons (by simp [ht.1])]

theorem Primary.columns_eq {ts : List Token} {e : Expr} : Primary ts e → e.columns = fields ts
  | .number h => by rw [Expr.columns, fields_cons (by simp [h]), fields_nil]
  | .text h => by rw [Expr.columns, fields_cons (by simp [h]), fields_nil]
  | .reference h => by rw [Expr.columns, fields_reference h, fields_nil]
  | .truth h _ => by rw [Expr.columns, fields_cons (by simp [h]), fields_nil]
  | .call hname _ hopen hargs hclose => by
    rw [Expr.columns, hargs.columns_eq, fields_cons (by simp [hname]), fields_cons (by simp [hopen]), fields_append,
      fields_cons (by simp [hclose]), fields_nil, List.append_nil]
  | .bracketed hopen h hclose => by
    rw [h.columns_eq, fields_cons (by simp [hopen]), fields_append, fields_cons (by simp [hclose]), fields_nil,
      List.append_nil]

theorem Arguments.columns_eq {ts : List Token} {args : List Expr} :
    Arguments ts args → Expr.columnsOfArgs args = fields ts
  | .none => rfl
  | .some h => h.columns_eq

theorem Listed.columns_eq {ts : List Token} {args : List Expr} :
    Listed ts args → Expr.columnsOfArgs args = fields ts
  | .last h => by rw [Expr.columnsOfArgs, h.columns_eq, Expr.columnsOfArgs, List.append_nil]
  | .more h ht hs => by
    rw [Expr.columnsOfArgs, h.columns_eq, hs.columns_eq, fields_append, fields_cons (by simp [ht])]

end

/-! ## Operands -/

mutual

theorem Expression.separated {ts : List Token} {e : Expr} : Expression ts e → Separated ts
  | .term h => h.separated
  | .sum hl _ ht hr => hl.separated.joined (not_isWordKind ht.1 (by simp)) hr.separated

theorem Term.separated {ts : List Token} {e : Expr} : Term ts e → Separated ts
  | .factor h => h.separated
  | .product hl _ ht hr => hl.separated.joined (not_isWordKind ht.1 (by simp)) hr.separated

theorem Factor.separated {ts : List Token} {e : Expr} : Factor ts e → Separated ts
  | .primary h => h.separated
  | .signed ht h => Separated.joined .nil (not_isWordKind ht.1 (by simp)) h.separated

theorem Primary.separated {ts : List Token} {e : Expr} : Primary ts e → Separated ts
  | .number _ => separated_singleton _
  | .text _ => separated_singleton _
  | .reference _ => separated_singleton _
  | .truth _ _ => separated_singleton _
  | .call _ _ hopen hargs hclose => by
    refine Separated.joined (separated_singleton _) (not_isWordKind hopen (by simp)) ?_
    exact hargs.separated.joined (not_isWordKind hclose (by simp)) .nil
  | .bracketed hopen h hclose => by
    refine Separated.joined .nil (not_isWordKind hopen (by simp)) ?_
    exact h.separated.joined (not_isWordKind hclose (by simp)) .nil

theorem Arguments.separated {ts : List Token} {args : List Expr} : Arguments ts args → Separated ts
  | .none => .nil
  | .some h => h.separated

theorem Listed.separated {ts : List Token} {args : List Expr} : Listed ts args → Separated ts
  | .last h => h.separated
  | .more h ht hs => h.separated.joined (not_isWordKind ht (by simp)) hs.separated

end

end Grammar

end AdhocReport
