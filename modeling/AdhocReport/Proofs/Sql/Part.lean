import AdhocReport.Sql.Evaluation
set_option autoImplicit false

/-!
# SQL: parts of expressions

Every occurrence of an expression within another one stands inside a number of aggregates.  SQLite takes
`max` and `min` of one argument for aggregates too, so that it also finds aggregates among the calls.
-/

namespace AdhocReport.Sql.Scalar

open AdhocReport.Query

/-- An expression occurs in another one, inside this many aggregates. -/
inductive Part : Nat → Scalar → Scalar → Prop
  | self (e : Scalar) : Part 0 e e
  | negated {n : Nat} {p e : Scalar} : Part n p e → Part n p (.negated e)
  | left {n : Nat} {p l r : Scalar} {op : Connective} : Part n p l → Part n p (.binary op l r)
  | right {n : Nat} {p l r : Scalar} {op : Connective} : Part n p r → Part n p (.binary op l r)
  | dividend {n : Nat} {p l r : Scalar} : Part n p l → Part n p (.quotient l r)
  | divisor {n : Nat} {p l r : Scalar} : Part n p r → Part n p (.quotient l r)
  | argument {n : Nat} {p e : Scalar} {f : Function} {args : List Scalar} :
      e ∈ args → Part n p e → Part n p (.call f args)
  | aggregated {n : Nat} {p e : Scalar} {a : Aggregation} : Part n p e → Part (n + 1) p (.aggregate a e)

/-- The expression shows a column of a table, as it is or as a period. -/
def ShowsColumn : Scalar → Prop
  | .column _ => True
  | .period _ _ => True
  | _ => False

/-- The expression is an aggregate that the engine has put there. -/
def IsAggregate : Scalar → Prop
  | .aggregate _ _ => True
  | _ => False

/-- SQLite takes the expression for a call of an aggregate: `max` and `min` of one argument are aggregates. -/
def CallsAggregate : Scalar → Prop
  | .aggregate _ _ => True
  | .call f args => args.length = 1 ∧ (functionName .sqlite f = "max" ∨ functionName .sqlite f = "min")
  | _ => False

/-! ## Aggregates and their depth -/

theorem functionName_isExtreme_iff (f : Function) :
    (functionName .sqlite f = "max" ∨ functionName .sqlite f = "min") ↔ f = .greatest ∨ f = .least := by
  cases f <;> decide

theorem extreme?_isSome_iff (f : Function) (args : List Scalar) :
    (extreme? f args).isSome = true ↔ (f = .greatest ∨ f = .least) ∧ args.length = 1 := by
  unfold extreme?
  split
  · exact iff_of_true rfl ⟨.inl rfl, rfl⟩
  · exact iff_of_true rfl ⟨.inr rfl, rfl⟩
  · rename_i hgreatest hleast
    refine iff_of_false Bool.false_ne_true ?_
    rintro ⟨hf, hlength⟩
    obtain ⟨e, rfl⟩ := List.length_eq_one_iff.mp hlength
    rcases hf with rfl | rfl
    · exact hgreatest e rfl rfl
    · exact hleast e rfl rfl

theorem callsAggregate_call_iff {f : Function} {args : List Scalar} :
    CallsAggregate (.call f args) ↔ (f = .greatest ∨ f = .least) ∧ args.length = 1 := by
  rw [CallsAggregate, functionName_isExtreme_iff, and_comm]

theorem aggregateDepth_pos {e : Scalar} (h : e.CallsAggregate) : 0 < e.aggregateDepth := by
  cases e with
  | aggregate a operand => exact Nat.add_pos_left Nat.one_pos _
  | call f args =>
    rw [aggregateDepth, if_pos ((extreme?_isSome_iff f args).mpr (callsAggregate_call_iff.mp h))]
    exact Nat.add_pos_left Nat.one_pos _
  | _ => exact h.elim

/-- The depth of arguments is that of the deepest one. -/
theorem aggregateDepthAll_le_iff {args : List Scalar} {depth : Nat} :
    aggregateDepthAll args ≤ depth ↔ ∀ e ∈ args, e.aggregateDepth ≤ depth := by
  induction args with
  | nil => exact iff_of_true (Nat.zero_le depth) fun e he => nomatch he
  | cons first rest ih => rw [aggregateDepthAll, Nat.max_le, ih, List.forall_mem_cons]

/-- The aggregates around a part add to those within it. -/
theorem Part.depth_le {n : Nat} {p e : Scalar} (h : Part n p e) : n + p.aggregateDepth ≤ e.aggregateDepth := by
  induction h with
  | self e => exact Nat.le_of_eq (Nat.zero_add _)
  | negated _ ih => exact ih
  | left _ ih => exact Nat.le_trans ih (Nat.le_max_left _ _)
  | right _ ih => exact Nat.le_trans ih (Nat.le_max_right _ _)
  | dividend _ ih => exact Nat.le_trans ih (Nat.le_max_left _ _)
  | divisor _ ih => exact Nat.le_trans ih (Nat.le_max_right _ _)
  | argument hmem _ ih =>
    have hargs := aggregateDepthAll_le_iff.mp (Nat.le_refl _) _ hmem
    exact Nat.le_trans (Nat.le_trans ih hargs) (Nat.le_add_left _ _)
  | aggregated _ ih =>
    rw [aggregateDepth]
    omega

mutual

theorem aggregateDepth_eq_zero : (e : Scalar) → (∀ n p, Part n p e → ¬ p.CallsAggregate) → e.aggregateDepth = 0
  | .column _, _ => rfl
  | .literal _, _ => rfl
  | .negated e, h => aggregateDepth_eq_zero e fun n p hp => h n p (.negated hp)
  | .binary _ l r, h => by
    have hl := aggregateDepth_eq_zero l fun n p hp => h n p (.left hp)
    have hr := aggregateDepth_eq_zero r fun n p hp => h n p (.right hp)
    rw [aggregateDepth, hl, hr, Nat.max_self]
  | .quotient l r, h => by
    have hl := aggregateDepth_eq_zero l fun n p hp => h n p (.dividend hp)
    have hr := aggregateDepth_eq_zero r fun n p hp => h n p (.divisor hp)
    rw [aggregateDepth, hl, hr, Nat.max_self]
  | .call f args, h => by
    have hself : ¬ (extreme? f args).isSome = true := by
      rw [extreme?_isSome_iff, ← callsAggregate_call_iff]
      exact h 0 _ (.self _)
    have hargs := aggregateDepthAll_eq_zero args fun e he n p hp => h n p (.argument he hp)
    rw [aggregateDepth, if_neg hself, hargs]
  | .aggregate _ _, h => (h 0 _ (.self _) trivial).elim
  | .period _ _, _ => rfl

theorem aggregateDepthAll_eq_zero : (args : List Scalar) →
    (∀ e ∈ args, ∀ n p, Part n p e → ¬ p.CallsAggregate) → aggregateDepthAll args = 0
  | [], _ => rfl
  | e :: rest, h => by
    obtain ⟨he, hrest⟩ := List.forall_mem_cons.mp h
    rw [aggregateDepthAll, aggregateDepth_eq_zero e he, aggregateDepthAll_eq_zero rest hrest, Nat.max_self]

end

/-- The depth is zero exactly when SQLite finds no aggregate in the expression. -/
theorem aggregateDepth_eq_zero_iff {e : Scalar} :
    e.aggregateDepth = 0 ↔ ∀ n p, Part n p e → ¬ p.CallsAggregate := by
  constructor
  · intro h n p hp hcalls
    have hdepth := hp.depth_le
    have hpos := aggregateDepth_pos hcalls
    omega
  · exact aggregateDepth_eq_zero e

end AdhocReport.Sql.Scalar
