import AdhocReport.Proofs.Decimal.Reading
import AdhocReport.Proofs.Expression.Reference
import AdhocReport.Proofs.Json.Canonical
set_option autoImplicit false

/-!
# Expressions: reading a record back

The record of a tree denotes this tree again, with one exception: a reader refuses a number that is
infinite or beyond the range of doubles, and a tree that was parsed may hold one, since a numeral of
a text has no bound.  What a reader makes of the record of a tree is therefore told by the first
refused literal.  Reading trims ids, so the references of the tree have to be trimmed.
-/

namespace AdhocReport

open Outcome (bind_ok)

/-! ## Refused literals -/

/-- Why a reader refuses a literal, if it does. -/
def Literal.fault? : Literal → Option RecordFault
  | .int n => if (Decimal.ofInt n).isInf then some .tooLarge else none
  | .float x => if x.isNaN || x.isInf then some .infinite else none
  | .text _ => none
  | .truth _ => none

/-- The numbers that are not refused: the integers below the limit of the doubles, and the finite doubles. -/
theorem Literal.fault?_int {n : ℤ} : (Literal.int n).fault? = none ↔ (n.natAbs : ℚ) < Decimal.limit := by
  have hinfinite := (Decimal.rounded_ofInt n).isInf
  rw [Literal.fault?, ite_eq_right_iff, ← not_le, ← hinfinite]
  constructor
  · intro h hinf
    cases h hinf
  · intro h hinf
    exact absurd hinf h

theorem Literal.fault?_float {x : Float} : (Literal.float x).fault? = none ↔ Decimal.IsFinite x := by
  rw [Literal.fault?, ite_eq_right_iff, Bool.or_eq_true]
  constructor
  · intro h
    refine ⟨Bool.eq_false_iff.mpr fun hinf => ?_, Bool.eq_false_iff.mpr fun hnan => ?_⟩
    · cases h (.inr hinf)
    · cases h (.inl hnan)
  · rintro h (hnan | hinf)
    · rw [h.isNaN] at hnan
      cases hnan
    · rw [h.isInf] at hinf
      cases hinf

namespace Expr

mutual

/-- The literals of a tree from left to right. -/
def literals : Expr → List Literal
  | .column _ => []
  | .literal value => [value]
  | .binary _ left right => literals left ++ literals right
  | .unary _ operand => literals operand
  | .call _ args => literalsOfArgs args
termination_by structural e => e

/-- The literals of an argument list from left to right. -/
def literalsOfArgs : List Expr → List Literal
  | [] => []
  | e :: rest => literals e ++ literalsOfArgs rest
termination_by structural args => args

end

/-- Why a reader refuses the record of a tree, if it does: the fault of its first refused literal. -/
def fault? (e : Expr) : Option RecordFault := e.literals.findSome? Literal.fault?

/-- Every literal of the tree is one that a reader accepts. -/
theorem fault?_eq_none_iff {e : Expr} : e.fault? = none ↔ ∀ l ∈ e.literals, l.fault? = none :=
  List.findSome?_eq_none_iff

/-- A reader refuses the record of a tree for an infinite number or for an integer that is too large. -/
theorem fault?_cases (e : Expr) : e.fault? = none ∨ e.fault? = some .infinite ∨ e.fault? = some .tooLarge := by
  cases hfault : e.fault? with
  | none => exact .inl rfl
  | some fault =>
    obtain ⟨l, -, hl⟩ := List.exists_of_findSome?_eq_some hfault
    unfold Literal.fault? at hl
    split at hl
    · split at hl <;> cases hl
      exact .inr (.inr rfl)
    · split at hl <;> cases hl
      exact .inr (.inl rfl)
    · cases hl
    · cases hl

end Expr

/-! ## Reading a record back -/

namespace Expr

/-- The outcome of reading what holds these literals: the value, or the first fault. -/
def unlessRefused {α : Type} (literals : List Literal) (a : α) : Except RecordFault α :=
  match literals.findSome? Literal.fault? with
  | none => .ok a
  | some fault => .error fault

/-- Two parts are read in turn: the faults of the first come before those of the second. -/
theorem unlessRefused_append {α β γ : Type} (ls ms : List Literal) (a : α) (b : β) (f : α → β → γ) :
    unlessRefused (ls ++ ms) (f a b) = (do
      let x ← unlessRefused ls a
      let y ← unlessRefused ms b
      .ok (f x y)) := by
  unfold unlessRefused
  rw [List.findSome?_append]
  cases ls.findSome? Literal.fault? <;> cases ms.findSome? Literal.fault? <;> rfl

theorem unlessRefused_map {α β : Type} (ls : List Literal) (a : α) (f : α → β) :
    unlessRefused ls (f a) = (do
      let x ← unlessRefused ls a
      .ok (f x)) := by
  unfold unlessRefused
  cases ls.findSome? Literal.fault? <;> rfl

theorem literalOf_record (l : Literal) : literalOf (.str l.typeName) l.toJson = unlessRefused [l] l := by
  cases l with
  | int n =>
    simp only [literalOf, Literal.typeName, Literal.toJson, unlessRefused, List.findSome?_cons, Literal.fault?]
    split <;> simp
  | float x =>
    simp only [literalOf, Literal.typeName, Literal.toJson, unlessRefused, List.findSome?_cons, Literal.fault?]
    split <;> simp
  | text s => rfl
  | truth b => rfl

theorem operatorOf_symbol {α : Type} {ofSymbol? : String → Option α} (fault : Json → RecordFault) {s : String}
    {op : α} (h : ofSymbol? s = some op) : operatorOf ofSymbol? fault (.str s) = .ok op := by
  rw [operatorOf]
  simp only [h]

theorem ofName?_lower_trim (f : Function) : Function.ofName? (Text.lower (Text.trim f.name)) = some f := by
  cases f <;> rfl

/-! Each form of a record, with its operands read by the next fuel. -/

theorem member_cons (k key : String) (v : Json) (members : List (String × Json)) :
    member ((k, v) :: members) key = if k = key then v else member members key := by
  rw [member, member, Json.lookup_cons]
  split <;> rfl

theorem trimmedMember_cons (k key s : String) (members : List (String × Json)) :
    trimmedMember ((k, .str s) :: members) key = if k = key then Text.trim s else trimmedMember members key := by
  rw [trimmedMember, trimmedMember, Json.lookup_cons]
  by_cases h : k = key
  · rw [if_pos h, if_pos h]
  · rw [if_neg h, if_neg h]

theorem ofJsonWithin_column (fuel : ℕ) {ref : FieldRef} (h : ref.Trimmed) :
    ofJsonWithin (fuel + 1)
        (.obj [("type", .str "column"), ("model_id", .str ref.model), ("field_id", .str ref.field)]) =
      .ok (.column ref) := by
  simp [ofJsonWithin, member_cons, trimmedMember_cons, h.trim_model, h.trim_field, h.model_ne, h.field_ne]

theorem ofJsonWithin_literal (fuel : ℕ) (valueType value : Json) :
    ofJsonWithin (fuel + 1) (.obj [("type", .str "literal"), ("value", value), ("value_type", valueType)]) =
      (do
        let l ← literalOf valueType value
        .ok (.literal l)) := by
  simp [ofJsonWithin, member_cons]

theorem ofJsonWithin_binary (fuel : ℕ) (op : Operator) (left right : Json) :
    ofJsonWithin (fuel + 1)
        (.obj [("type", .str "binary"), ("operator", .str op.symbol), ("left", left), ("right", right)]) =
      (do
        let l ← ofJsonWithin fuel left
        let r ← ofJsonWithin fuel right
        .ok (.binary op l r)) := by
  have hop := operatorOf_symbol .badBinary (Operator.ofSymbol?_eq_some_iff.mpr (Eq.refl op.symbol))
  simp [ofJsonWithin, member_cons, hop, bind_ok]

theorem ofJsonWithin_unary (fuel : ℕ) (sign : Sign) (operand : Json) :
    ofJsonWithin (fuel + 1)
        (.obj [("type", .str "unary"), ("operator", .str sign.symbol), ("argument", operand)]) =
      (do
        let e ← ofJsonWithin fuel operand
        .ok (.unary sign e)) := by
  have hsign := operatorOf_symbol .badUnary (Sign.ofSymbol?_eq_some_iff.mpr (Eq.refl sign.symbol))
  simp [ofJsonWithin, member_cons, hsign, bind_ok]

theorem ofJsonWithin_call (fuel : ℕ) (function : Function) (items : List Json) :
    ofJsonWithin (fuel + 1)
        (.obj [("type", .str "function"), ("name", .str function.name), ("args", .arr items)]) =
      (do
        let args ← argsOfJsonWithin fuel items
        .ok (.call function args)) := by
  simp [ofJsonWithin, member_cons, trimmedMember_cons, ofName?_lower_trim]

theorem exists_fuel {j : Json} {fuel : ℕ} (h : j.size ≤ fuel) : ∃ rest, fuel = rest + 1 := by
  have hpos : 0 < j.size := by cases j <;> simp [Json.size]
  exact ⟨fuel - 1, by omega⟩

mutual

/-- Each step of the reading leaves a value of the record behind, so fuel for all of them is enough. -/
theorem ofJsonWithin_toJson : (e : Expr) → e.Trimmed → (fuel : ℕ) → e.toJson.size ≤ fuel →
    ofJsonWithin fuel e.toJson = unlessRefused e.literals e
  | .column ref, htrimmed, fuel, hfuel => by
    obtain ⟨fuel, rfl⟩ := exists_fuel hfuel
    exact ofJsonWithin_column fuel (htrimmed ref (List.mem_singleton.mpr rfl))
  | .literal value, _, fuel, hfuel => by
    obtain ⟨fuel, rfl⟩ := exists_fuel hfuel
    rw [toJson, ofJsonWithin_literal, literalOf_record, literals, unlessRefused_map _ _ Expr.literal]
  | .binary op left right, htrimmed, fuel, hfuel => by
    obtain ⟨hleft, hright⟩ := List.forall_mem_append.mp htrimmed
    obtain ⟨fuel, rfl⟩ := exists_fuel hfuel
    simp only [toJson, Json.size, Json.sizeOfMembers] at hfuel
    rw [toJson, ofJsonWithin_binary, ofJsonWithin_toJson left hleft fuel (by omega),
      ofJsonWithin_toJson right hright fuel (by omega), literals, unlessRefused_append _ _ _ _ (Expr.binary op)]
  | .unary sign operand, htrimmed, fuel, hfuel => by
    obtain ⟨fuel, rfl⟩ := exists_fuel hfuel
    simp only [toJson, Json.size, Json.sizeOfMembers] at hfuel
    rw [toJson, ofJsonWithin_unary, ofJsonWithin_toJson operand htrimmed fuel (by omega), literals,
      unlessRefused_map _ _ (Expr.unary sign)]
  | .call function args, htrimmed, fuel, hfuel => by
    obtain ⟨fuel, rfl⟩ := exists_fuel hfuel
    simp only [toJson, Json.size, Json.sizeOfMembers] at hfuel
    rw [toJson, ofJsonWithin_call, argsOfJsonWithin_argsToJson args htrimmed fuel (by omega), literals,
      unlessRefused_map _ _ (Expr.call function)]

theorem argsOfJsonWithin_argsToJson : (args : List Expr) → (∀ ref ∈ columnsOfArgs args, ref.Trimmed) →
    (fuel : ℕ) → Json.sizeOfItems (argsToJson args) < fuel →
    argsOfJsonWithin fuel (argsToJson args) = unlessRefused (literalsOfArgs args) args
  | [], _, fuel, _ => by
    rw [argsToJson, argsOfJsonWithin]
    rfl
  | e :: rest, htrimmed, fuel, hfuel => by
    obtain ⟨he, hrest⟩ := List.forall_mem_append.mp htrimmed
    simp only [argsToJson, Json.sizeOfItems] at hfuel
    obtain ⟨_, hpos⟩ := exists_fuel (le_refl e.toJson.size)
    obtain ⟨fuel, rfl⟩ : ∃ n, fuel = n + 1 := ⟨fuel - 1, by omega⟩
    rw [argsToJson, argsOfJsonWithin, ofJsonWithin_toJson e he fuel (by omega),
      argsOfJsonWithin_argsToJson rest hrest fuel (by omega), literalsOfArgs,
      unlessRefused_append _ _ _ _ List.cons]

end

/-- Reading the record of a tree gives the tree, or the fault of its first refused literal. -/
theorem ofJson_toJson {e : Expr} (h : e.Trimmed) : ofJson e.toJson = unlessRefused e.literals e :=
  ofJsonWithin_toJson e h _ (Nat.le_succ _)

/-- The record of a tree is read back exactly when no literal of it is refused. -/
theorem ofJson_toJson_eq_ok_iff {e : Expr} (h : e.Trimmed) : ofJson e.toJson = .ok e ↔ e.fault? = none := by
  rw [ofJson_toJson h, unlessRefused, ← fault?]
  cases e.fault? with
  | none => simp
  | some fault => simp

/-! ## Trees that were read -/

theorem trim_trimmedMember (members : List (String × Json)) (key : String) :
    Text.trim (trimmedMember members key) = trimmedMember members key := by
  unfold trimmedMember
  split
  · exact Text.trim_trim _
  · rfl

/-- The trees that records, and lists of them, denote are trimmed. -/
def ReadsTrimmed (fuel : ℕ) : Prop :=
  (∀ {j : Json} {e : Expr}, ofJsonWithin fuel j = .ok e → e.Trimmed) ∧
    ∀ {items : List Json} {es : List Expr}, argsOfJsonWithin fuel items = .ok es →
      ∀ ref ∈ columnsOfArgs es, ref.Trimmed

theorem ReadsTrimmed.record {fuel : ℕ} (ih : ReadsTrimmed fuel) {members : List (String × Json)} {e : Expr}
    (h : ofJsonWithin (fuel + 1) (.obj members) = .ok e) : e.Trimmed := by
  unfold ofJsonWithin at h
  split at h
  · dsimp only at h
    split at h
    · cases h
    · rename_i hids
      cases h
      simp only [Bool.or_eq_true, beq_iff_eq, not_or] at hids
      exact List.forall_mem_singleton.mpr
        ⟨hids.1, hids.2, trim_trimmedMember members _, trim_trimmedMember members _⟩
  · obtain ⟨value, -, h⟩ := Outcome.bind_eq_ok.mp h
    cases h
    exact List.forall_mem_nil _
  · obtain ⟨op, -, h⟩ := Outcome.bind_eq_ok.mp h
    obtain ⟨left, hleft, h⟩ := Outcome.bind_eq_ok.mp h
    obtain ⟨right, hright, h⟩ := Outcome.bind_eq_ok.mp h
    cases h
    exact List.forall_mem_append.mpr ⟨ih.1 hleft, ih.1 hright⟩
  · obtain ⟨sign, -, h⟩ := Outcome.bind_eq_ok.mp h
    obtain ⟨operand, hoperand, h⟩ := Outcome.bind_eq_ok.mp h
    cases h
    have htrimmed : operand.Trimmed := ih.1 hoperand
    exact htrimmed
  · dsimp only at h
    split at h
    · cases h
    · split at h
      · cases h
        exact List.forall_mem_nil _
      · obtain ⟨args, hargs, h⟩ := Outcome.bind_eq_ok.mp h
        cases h
        exact ih.2 hargs
      · cases h
  · cases h

theorem readsTrimmed (fuel : ℕ) : ReadsTrimmed fuel := by
  induction fuel with
  | zero =>
    refine ⟨?_, ?_⟩
    · intro j e h
      cases h
    · intro items es h
      cases items with
      | nil =>
        cases h
        exact List.forall_mem_nil _
      | cons j rest => cases h
  | succ fuel ih =>
    refine ⟨?_, ?_⟩
    · intro j e h
      cases j with
      | obj members => exact ih.record h
      | _ => cases h
    · intro items es h
      cases items with
      | nil =>
        cases h
        exact List.forall_mem_nil _
      | cons j rest =>
        obtain ⟨e, he, h⟩ := Outcome.bind_eq_ok.mp h
        obtain ⟨others, hothers, h⟩ := Outcome.bind_eq_ok.mp h
        cases h
        exact List.forall_mem_append.mpr ⟨ih.1 he, ih.2 hothers⟩

/-- A tree that was read from a record is trimmed. -/
theorem trimmed_of_ofJson {j : Json} {e : Expr} (h : ofJson j = .ok e) : e.Trimmed :=
  (readsTrimmed _).1 h

end Expr

end AdhocReport
