import AdhocReport.Proofs.Expression.ReadBack
set_option autoImplicit false

/-!
# Expressions: reading a record member by member

A record is read by its members: each of them that is a record in turn is smaller than the whole, so the
fuel of a reader covers it, and more fuel changes nothing.  For each type of node this gives the reader as
an equation without fuel; the arguments of a call are read one by one, up to the first fault.
-/

namespace AdhocReport

namespace Json

theorem size_pos (j : Json) : 0 < j.size := by
  cases j <;> simp [size]

theorem size_le_of_lookup {members : List (String × Json)} {key : String} {v : Json}
    (h : lookup members key = some v) : v.size ≤ sizeOfMembers members := by
  rw [sizeOfMembers_eq_sum]
  exact List.single_le_sum (fun _ _ => Nat.zero_le _) _
    (List.mem_map_of_mem (f := fun m : String × Json => m.2.size) (mem_of_lookup h))

theorem size_le_of_mem {items : List Json} {j : Json} (h : j ∈ items) : j.size ≤ sizeOfItems items := by
  induction items with
  | nil => cases h
  | cons first rest ih =>
    rw [sizeOfItems]
    rcases List.mem_cons.mp h with rfl | h
    · exact Nat.le_add_right _ _
    · exact (ih h).trans (Nat.le_add_left _ _)

end Json

namespace Expr

open Outcome (bind_ok)

/-! ## Fuel -/

/-- A member of a record that has a type is at most as large as all members together. -/
theorem size_member_le {members : List (String × Json)} {type : String}
    (htype : member members "type" = .str type) (key : String) :
    (member members key).size ≤ Json.sizeOfMembers members := by
  have hfound : ∀ {key v}, Json.lookup members key = some v → v.size ≤ Json.sizeOfMembers members :=
    fun h => Json.size_le_of_lookup h
  rw [member]
  cases hkey : Json.lookup members key with
  | some v => exact hfound hkey
  | none =>
    -- a missing member counts as null, which is no larger than the type
    rw [member] at htype
    cases hlookup : Json.lookup members "type" with
    | some v => exact (Json.size_pos v).trans_le (hfound hlookup)
    | none =>
      rw [hlookup] at htype
      cases htype

/-- Two amounts of fuel that cover a record, or a list of them, read the same. -/
def Alike (fuel fuel' : ℕ) : Prop :=
  (∀ j : Json, j.size ≤ fuel → j.size ≤ fuel' → ofJsonWithin fuel j = ofJsonWithin fuel' j) ∧
    ∀ items : List Json, Json.sizeOfItems items < fuel → Json.sizeOfItems items < fuel' →
      argsOfJsonWithin fuel items = argsOfJsonWithin fuel' items

theorem Alike.record {fuel fuel' : ℕ} (ih : Alike fuel fuel') {members : List (String × Json)}
    (hfuel : Json.sizeOfMembers members ≤ fuel) (hfuel' : Json.sizeOfMembers members ≤ fuel') :
    ofJsonWithin (fuel + 1) (.obj members) = ofJsonWithin (fuel' + 1) (.obj members) := by
  have hmember : ∀ {type}, member members "type" = .str type → ∀ key,
      ofJsonWithin fuel (member members key) = ofJsonWithin fuel' (member members key) :=
    fun htype key => ih.1 _ ((size_member_le htype key).trans hfuel) ((size_member_le htype key).trans hfuel')
  unfold ofJsonWithin
  split
  · rfl
  · rfl
  · rename_i htype
    rw [hmember htype, hmember htype]
  · rename_i htype
    rw [hmember htype]
  · rename_i htype
    dsimp only
    split
    · rfl
    · split
      · rfl
      · rename_i items hargs
        have hsize := size_member_le htype "args"
        rw [hargs, Json.size] at hsize
        rw [ih.2 items (by omega) (by omega)]
      · rfl
  · rfl

theorem alike (fuel fuel' : ℕ) : Alike fuel fuel' := by
  induction fuel generalizing fuel' with
  | zero =>
    refine ⟨fun j hfuel => ?_, fun items hfuel => ?_⟩
    · exact absurd hfuel (Json.size_pos j).not_ge
    · exact absurd hfuel (Nat.not_lt_zero _)
  | succ fuel ih =>
    refine ⟨fun j hfuel hfuel' => ?_, fun items hfuel hfuel' => ?_⟩
    · obtain ⟨fuel', rfl⟩ := exists_fuel hfuel'
      cases j with
      | obj members => exact (ih fuel').record (Nat.le_of_succ_le_succ hfuel) (Nat.le_of_succ_le_succ hfuel')
      | _ => rfl
    · obtain ⟨fuel', rfl⟩ := Nat.exists_eq_add_one.mpr (Nat.zero_lt_of_lt hfuel')
      cases items with
      | nil => rw [argsOfJsonWithin, argsOfJsonWithin]
      | cons j rest =>
        have hpos := Json.size_pos j
        rw [Json.sizeOfItems] at hfuel hfuel'
        rw [argsOfJsonWithin, argsOfJsonWithin, (ih fuel').1 j (by omega) (by omega),
          (ih fuel').2 rest (by omega) (by omega)]

theorem ofJsonWithin_eq {j : Json} {fuel : ℕ} (h : j.size ≤ fuel) : ofJsonWithin fuel j = ofJson j :=
  (alike _ _).1 j h (Nat.le_succ _)

/-- The arguments of a call are read one by one. -/
theorem argsOfJsonWithin_eq {items : List Json} {fuel : ℕ} (h : Json.sizeOfItems items < fuel) :
    argsOfJsonWithin fuel items = items.mapM ofJson := by
  induction items generalizing fuel with
  | nil =>
    rw [argsOfJsonWithin]
    rfl
  | cons j rest ih =>
    obtain ⟨fuel, rfl⟩ := Nat.exists_eq_add_one.mpr (Nat.zero_lt_of_lt h)
    have hpos := Json.size_pos j
    rw [Json.sizeOfItems] at h
    rw [argsOfJsonWithin, List.mapM_cons, ofJsonWithin_eq (by omega), ih (by omega)]
    rfl

/-! ## The types of nodes -/

theorem trimmedMember_eq (members : List (String × Json)) (key : String) :
    trimmedMember members key = match member members key with
      | .str s => Text.trim s
      | _ => "" := by
  unfold trimmedMember member
  cases Json.lookup members key with
  | none => rfl
  | some j => cases j <;> rfl

section

variable {members : List (String × Json)}

theorem ofJson_column (h : member members "type" = .str "column") :
    ofJson (.obj members) =
      if trimmedMember members "model_id" == "" || trimmedMember members "field_id" == "" then .error .missingIds
      else .ok (.column ⟨trimmedMember members "model_id", trimmedMember members "field_id"⟩) := by
  rw [ofJson, ofJsonWithin]
  simp only [h]

theorem ofJson_literal (h : member members "type" = .str "literal") :
    ofJson (.obj members) = (do
      let value ← literalOf (member members "value_type") (member members "value")
      .ok (.literal value)) := by
  rw [ofJson, ofJsonWithin]
  simp only [h]

theorem ofJson_binary (h : member members "type" = .str "binary") :
    ofJson (.obj members) = (do
      let op ← operatorOf Operator.ofSymbol? .badBinary (member members "operator")
      let left ← ofJson (member members "left")
      let right ← ofJson (member members "right")
      .ok (.binary op left right)) := by
  rw [ofJson, ofJsonWithin]
  simp only [h]
  rw [Json.size, ofJsonWithin_eq ((size_member_le h _).trans (Nat.le_succ _)),
    ofJsonWithin_eq ((size_member_le h _).trans (Nat.le_succ _))]

theorem ofJson_unary (h : member members "type" = .str "unary") :
    ofJson (.obj members) = (do
      let sign ← operatorOf Sign.ofSymbol? .badUnary (member members "operator")
      let operand ← ofJson (member members "argument")
      .ok (.unary sign operand)) := by
  rw [ofJson, ofJsonWithin]
  simp only [h]
  rw [Json.size, ofJsonWithin_eq ((size_member_le h _).trans (Nat.le_succ _))]

/-- The items of the arguments of a call; missing arguments and null stand for none. -/
def argItems? : Json → Option (List Json)
  | .null => some []
  | .arr items => some items
  | _ => none

theorem ofJson_call (h : member members "type" = .str "function") :
    ofJson (.obj members) =
      match Function.ofName? (Text.lower (trimmedMember members "name")), argItems? (member members "args") with
      | none, _ => .error (.badFunction (Text.lower (trimmedMember members "name")))
      | some _, none => .error .badArgs
      | some function, some items => (do
        let args ← items.mapM ofJson
        .ok (.call function args)) := by
  rw [ofJson, ofJsonWithin]
  simp only [h]
  cases Function.ofName? (Text.lower (trimmedMember members "name")) with
  | none => rfl
  | some function =>
    dsimp only
    cases hargs : member members "args" with
    | null => rfl
    | arr items =>
      have hsize := size_member_le h "args"
      rw [hargs, Json.size] at hsize
      dsimp only [argItems?]
      rw [argsOfJsonWithin_eq (by rw [Json.size]; omega)]
    | _ => rfl

/-- The types of nodes. -/
def nodeTypes : List String := ["column", "literal", "binary", "unary", "function"]

theorem ofJson_unknown (h : ∀ type ∈ nodeTypes, member members "type" ≠ .str type) :
    ofJson (.obj members) = .error (.badType (member members "type")) := by
  simp only [nodeTypes, List.forall_mem_cons, List.not_mem_nil, false_implies, forall_const, and_true] at h
  obtain ⟨hcolumn, hliteral, hbinary, hunary, hcall⟩ := h
  rw [ofJson, ofJsonWithin]
  split
  · exact absurd (by assumption) hcolumn
  · exact absurd (by assumption) hliteral
  · exact absurd (by assumption) hbinary
  · exact absurd (by assumption) hunary
  · exact absurd (by assumption) hcall
  · rfl

end

end Expr

end AdhocReport
