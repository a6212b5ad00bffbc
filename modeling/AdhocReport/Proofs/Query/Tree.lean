import AdhocReport.Proofs.Outcome
import AdhocReport.Proofs.Sql.Part
import AdhocReport.Query.Compilation
set_option autoImplicit false

/-!
# Queries: parts of compiled trees

Compiling the tree of a derived field puts an expression in the place of each of its fields.  All columns
and all aggregates of the result are within those expressions; what the tree itself adds are operators and
calls, each call with as many arguments as in the tree.
-/

namespace AdhocReport

namespace Expr

mutual

/-- The calls of a tree, each with its number of arguments. -/
def calls : Expr → List (Function × Nat)
  | .column _ => []
  | .literal _ => []
  | .binary _ left right => calls left ++ calls right
  | .unary _ operand => calls operand
  | .call f args => (f, args.length) :: callsOfArgs args
termination_by structural e => e

/-- The calls of arguments. -/
def callsOfArgs : List Expr → List (Function × Nat)
  | [] => []
  | e :: rest => calls e ++ callsOfArgs rest
termination_by structural args => args

end

theorem mem_callsOfArgs {args : List Expr} {c : Function × Nat} :
    c ∈ callsOfArgs args ↔ ∃ e ∈ args, c ∈ e.calls := by
  induction args with
  | nil => simp [callsOfArgs]
  | cons e rest ih =>
    rw [callsOfArgs, List.mem_append, ih]
    simp only [List.mem_cons, exists_eq_or_imp]

/-- The tree asks for the greatest or the least of a single value. -/
def PicksFromOne (e : Expr) : Prop := (.greatest, 1) ∈ e.calls ∨ (.least, 1) ∈ e.calls

instance (e : Expr) : Decidable e.PicksFromOne := inferInstanceAs (Decidable (_ ∨ _))

theorem PicksFromOne.of_subset {e larger : Expr} (hsubset : e.calls ⊆ larger.calls) (h : e.PicksFromOne) :
    larger.PicksFromOne := h.imp (fun h => hsubset h) (fun h => hsubset h)

end Expr

namespace Query

open AdhocReport.Sql AdhocReport.Sql.Scalar
open Outcome (bind_eq_ok)

variable {d : Dialect} {column : FieldRef → Except Failure Scalar}

/-! ## Operations -/

/-- An operation is written with an operator between its operands, or as a quotient. -/
theorem operation_cases (d : Dialect) (op : Operator) (l r : Scalar) :
    (∃ c, operation d op l r = .binary c l r) ∨ operation d op l r = .quotient l r := by
  cases op with
  | add =>
    rw [operation, plus]
    split
    · exact .inl ⟨.concat, rfl⟩
    · exact .inl ⟨.add, rfl⟩
  | sub => exact .inl ⟨.sub, rfl⟩
  | mul => exact .inl ⟨.mul, rfl⟩
  | div => exact .inr rfl

theorem operation_adds_operator (op : Operator) (l r : Scalar) :
    ¬ (operation d op l r).ShowsColumn ∧ ¬ (operation d op l r).IsAggregate := by
  rcases operation_cases d op l r with ⟨c, hc⟩ | hquotient
  · rw [hc]
    exact ⟨id, id⟩
  · rw [hquotient]
    exact ⟨id, id⟩

/-- A part of an operation is the operation itself or a part of an operand. -/
theorem part_operation {op : Operator} {l r p : Scalar} {n : Nat} (h : Part n p (operation d op l r)) :
    (n = 0 ∧ p = operation d op l r) ∨ Part n p l ∨ Part n p r := by
  rcases operation_cases d op l r with ⟨c, hc⟩ | hquotient
  · rw [hc] at h ⊢
    cases h with
    | self => exact .inl ⟨rfl, rfl⟩
    | left hl => exact .inr (.inl hl)
    | right hr => exact .inr (.inr hr)
  · rw [hquotient] at h ⊢
    cases h with
    | self => exact .inl ⟨rfl, rfl⟩
    | dividend hl => exact .inr (.inl hl)
    | divisor hr => exact .inr (.inr hr)

theorem part_operation_left {op : Operator} {l p : Scalar} {n : Nat} (h : Part n p l) (r : Scalar) :
    Part n p (operation d op l r) := by
  rcases operation_cases d op l r with ⟨c, hc⟩ | hquotient
  · rw [hc]
    exact .left h
  · rw [hquotient]
    exact .dividend h

theorem part_operation_right {op : Operator} {r p : Scalar} {n : Nat} (h : Part n p r) (l : Scalar) :
    Part n p (operation d op l r) := by
  rcases operation_cases d op l r with ⟨c, hc⟩ | hquotient
  · rw [hc]
    exact .right h
  · rw [hquotient]
    exact .divisor h

theorem aggregateDepth_operation (op : Operator) (l r : Scalar) :
    (operation d op l r).aggregateDepth = max l.aggregateDepth r.aggregateDepth := by
  rcases operation_cases d op l r with ⟨c, hc⟩ | hquotient
  · rw [hc, aggregateDepth]
  · rw [hquotient, aggregateDepth]

/-! ## Trees -/

/-- The tree is compiled to the expression: `column` says what stands for a field, a positive sign is left out, and
a call keeps its arguments in their order. -/
inductive Compiles (d : Dialect) (column : FieldRef → Except Failure Scalar) : Expr → Scalar → Prop
  | field {ref : FieldRef} {v : Scalar} : column ref = .ok v → Compiles d column (.column ref) v
  | literal (value : Literal) : Compiles d column (.literal value) (.literal value)
  | positive {e : Expr} {v : Scalar} : Compiles d column e v → Compiles d column (.unary .plus e) v
  | negative {e : Expr} {v : Scalar} : Compiles d column e v → Compiles d column (.unary .minus e) (.negated v)
  | operation {op : Operator} {l r : Expr} {v w : Scalar} : Compiles d column l v → Compiles d column r w →
      Compiles d column (.binary op l r) (operation d op v w)
  | call {f : Function} {args : List Expr} {vs : List Scalar} : vs.length = args.length →
      (∀ p ∈ args.zip vs, Compiles d column p.1 p.2) → Compiles d column (.call f args) (.call f vs)

mutual

theorem compiles_of_scalarOf : (e : Expr) → {v : Scalar} → scalarOf d column e = .ok v → Compiles d column e v
  | .column ref, v, hv => .field hv
  | .literal value, v, hv => by
    cases hv
    exact .literal value
  | .unary sign e, v, hv => by
    cases sign with
    | plus => exact .positive (compiles_of_scalarOf e hv)
    | minus =>
      obtain ⟨w, hw, hv⟩ := bind_eq_ok.mp hv
      cases hv
      exact .negative (compiles_of_scalarOf e hw)
  | .binary op l r, v, hv => by
    obtain ⟨left, hleft, hv⟩ := bind_eq_ok.mp hv
    obtain ⟨right, hright, hv⟩ := bind_eq_ok.mp hv
    cases hv
    exact .operation (compiles_of_scalarOf l hleft) (compiles_of_scalarOf r hright)
  | .call f args, v, hv => by
    obtain ⟨vs, hvs, hv⟩ := bind_eq_ok.mp hv
    cases hv
    obtain ⟨hlength, hargs⟩ := compiles_of_scalarsOf args hvs
    exact .call hlength hargs

theorem compiles_of_scalarsOf : (args : List Expr) → {vs : List Scalar} → scalarsOf d column args = .ok vs →
    vs.length = args.length ∧ ∀ p ∈ args.zip vs, Compiles d column p.1 p.2
  | [], vs, hvs => by
    cases hvs
    exact ⟨rfl, fun p hp => nomatch hp⟩
  | e :: rest, vs, hvs => by
    obtain ⟨first, hfirst, hvs⟩ := bind_eq_ok.mp hvs
    obtain ⟨others, hothers, hvs⟩ := bind_eq_ok.mp hvs
    cases hvs
    obtain ⟨hlength, hrest⟩ := compiles_of_scalarsOf rest hothers
    refine ⟨?_, ?_⟩
    · rw [List.length_cons, List.length_cons, hlength]
    · rw [List.zip_cons_cons, List.forall_mem_cons]
      exact ⟨compiles_of_scalarOf e hfirst, hrest⟩

end

theorem exists_mem_zip_right {α β : Type} {xs : List α} {ys : List β} (hlength : ys.length = xs.length) {y : β}
    (hy : y ∈ ys) : ∃ x, (x, y) ∈ xs.zip ys := by
  rw [← List.map_snd_zip (Nat.le_of_eq hlength)] at hy
  obtain ⟨⟨x, _⟩, hmem, rfl⟩ := List.mem_map.mp hy
  exact ⟨x, hmem⟩

theorem exists_mem_zip_left {α β : Type} {xs : List α} {ys : List β} (hlength : ys.length = xs.length) {x : α}
    (hx : x ∈ xs) : ∃ y, (x, y) ∈ xs.zip ys := by
  rw [← List.map_fst_zip (Nat.le_of_eq hlength.symm)] at hx
  obtain ⟨⟨_, y⟩, hmem, rfl⟩ := List.mem_map.mp hx
  exact ⟨y, hmem⟩

/-! ## Columns and aggregates -/

/-- The part comes from what stands for a field, or it is neither a column nor an aggregate, and in none. -/
def ComesFrom (column : FieldRef → Except Failure Scalar) (n : Nat) (p : Scalar) : Prop :=
  (∃ ref v, column ref = .ok v ∧ Part n p v) ∨ n = 0 ∧ ¬ p.ShowsColumn ∧ ¬ p.IsAggregate

/-- Columns and aggregates are only within what stands for the fields. -/
theorem Compiles.comesFrom {e : Expr} {v : Scalar} (h : Compiles d column e v) {n : Nat} {p : Scalar}
    (hp : Part n p v) : ComesFrom column n p := by
  induction h with
  | field hv => exact .inl ⟨_, _, hv, hp⟩
  | literal value =>
    cases hp
    exact .inr ⟨rfl, id, id⟩
  | positive _ ih => exact ih hp
  | negative _ ih =>
    cases hp with
    | self => exact .inr ⟨rfl, id, id⟩
    | negated hp => exact ih hp
  | @operation op _ _ v w _ _ ihl ihr =>
    rcases part_operation hp with ⟨rfl, rfl⟩ | hp | hp
    · exact .inr ⟨rfl, operation_adds_operator op v w⟩
    · exact ihl hp
    · exact ihr hp
  | call hlength _ ih =>
    cases hp with
    | self => exact .inr ⟨rfl, id, id⟩
    | argument hmem hp =>
      obtain ⟨e, he⟩ := exists_mem_zip_right hlength hmem
      exact ih _ he hp

/-! ## Calls -/

/-- Each call of a tree is a call of what it is compiled to, with as many arguments. -/
theorem Compiles.exists_call {e : Expr} {v : Scalar} (h : Compiles d column e v) {f : Function} {k : Nat}
    (hf : (f, k) ∈ e.calls) : ∃ args n, args.length = k ∧ Part n (.call f args) v := by
  induction h with
  | field hv => cases hf
  | literal value => cases hf
  | positive _ ih => exact ih hf
  | negative _ ih =>
    obtain ⟨args, n, hlength, hp⟩ := ih hf
    exact ⟨args, n, hlength, .negated hp⟩
  | operation _ _ ihl ihr =>
    rcases List.mem_append.mp hf with hf | hf
    · obtain ⟨args, n, hlength, hp⟩ := ihl hf
      exact ⟨args, n, hlength, part_operation_left hp _⟩
    · obtain ⟨args, n, hlength, hp⟩ := ihr hf
      exact ⟨args, n, hlength, part_operation_right hp _⟩
  | @call g args vs hlength _ ih =>
    rcases List.mem_cons.mp hf with hf | hf
    · cases hf
      exact ⟨vs, 0, hlength, .self _⟩
    · obtain ⟨e, he, hf⟩ := Expr.mem_callsOfArgs.mp hf
      obtain ⟨w, hw⟩ := exists_mem_zip_left hlength he
      obtain ⟨inner, n, hinner, hp⟩ := ih _ hw hf
      exact ⟨inner, n, hinner, .argument (List.of_mem_zip hw).2 hp⟩

/-- A tree that picks from several values only adds no aggregate to what stands for its fields. -/
theorem Compiles.aggregateDepth_le {depth : Nat} (hcolumn : ∀ ref v, column ref = .ok v → v.aggregateDepth ≤ depth)
    {e : Expr} {v : Scalar} (h : Compiles d column e v) (hmany : ¬ e.PicksFromOne) : v.aggregateDepth ≤ depth := by
  induction h with
  | field hv => exact hcolumn _ _ hv
  | literal value => exact Nat.zero_le depth
  | positive _ ih => exact ih hmany
  | negative _ ih =>
    rw [aggregateDepth]
    exact ih hmany
  | operation _ _ ihl ihr =>
    rw [aggregateDepth_operation, Nat.max_le]
    refine ⟨ihl (mt (Expr.PicksFromOne.of_subset ?_) hmany), ihr (mt (Expr.PicksFromOne.of_subset ?_) hmany)⟩
    · exact List.subset_append_left _ _
    · exact List.subset_append_right _ _
  | @call f args vs hlength _ ih =>
    have hextreme : ¬ (extreme? f vs).isSome = true := by
      rw [extreme?_isSome_iff, hlength]
      rintro ⟨rfl | rfl, hone⟩
      · exact hmany (.inl (List.mem_cons.mpr (.inl (by rw [hone]))))
      · exact hmany (.inr (List.mem_cons.mpr (.inl (by rw [hone]))))
    -- The call itself is no aggregate, so that only its arguments count.
    rw [aggregateDepth, if_neg hextreme, Nat.zero_add, aggregateDepthAll_le_iff]
    intro w hw
    obtain ⟨e, he⟩ := exists_mem_zip_right hlength hw
    refine ih _ he (mt (Expr.PicksFromOne.of_subset fun c hc => ?_) hmany)
    exact List.mem_cons_of_mem _ (Expr.mem_callsOfArgs.mpr ⟨e, (List.of_mem_zip he).1, hc⟩)

/-- A tree over plain columns calls an aggregate of SQLite exactly when it asks for the greatest or the least of a
single value. -/
theorem Compiles.aggregateDepth_eq_zero_iff (hcolumn : ∀ ref v, column ref = .ok v → v.aggregateDepth = 0)
    {e : Expr} {v : Scalar} (h : Compiles d column e v) : v.aggregateDepth = 0 ↔ ¬ e.PicksFromOne := by
  constructor
  · intro hzero hone
    rw [Scalar.aggregateDepth_eq_zero_iff] at hzero
    rcases hone with hone | hone
    · obtain ⟨args, n, hlength, hp⟩ := h.exists_call hone
      exact hzero n _ hp (callsAggregate_call_iff.mpr ⟨.inl rfl, hlength⟩)
    · obtain ⟨args, n, hlength, hp⟩ := h.exists_call hone
      exact hzero n _ hp (callsAggregate_call_iff.mpr ⟨.inr rfl, hlength⟩)
  · intro hmany
    have hle := h.aggregateDepth_le (fun ref v hv => Nat.le_of_eq (hcolumn ref v hv)) hmany
    exact Nat.le_zero.mp hle

end Query

end AdhocReport
