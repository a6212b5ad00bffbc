import AdhocReport.Proofs.Json.Finite
import AdhocReport.Proofs.Outcome
set_option autoImplicit false

/-!
# The tree of a record

A tree is read from the members of its record by looking them up, so the order in which the record
lists them does not matter: a record with sorted keys denotes the same tree.  Neither does a number that
is not finite, since a tree with such a literal is refused.
-/

namespace AdhocReport.Expr

open AdhocReport.Outcome

/-- A change of values that no tree depends on: members are changed where they are found and items one by
one, and of the rest at most a number that is not finite is lost. -/
structure Immaterial (f : Json → Json) : Prop where
  null : f .null = .null
  bool : ∀ b, f (.bool b) = .bool b
  int : ∀ n, f (.int n) = .int n
  float : ∀ x, f (.float x) = .float x ∨ (x.isNaN || x.isInf) = true ∧ f (.float x) = .null
  str : ∀ s, f (.str s) = .str s
  arr : ∀ items, f (.arr items) = .arr (items.map f)
  obj : ∀ members, ∃ members', f (.obj members) = .obj members' ∧
    ∀ key, Json.lookup members' key = (Json.lookup members key).map f
  size : ∀ j, (f j).size = j.size

namespace Immaterial

variable {f : Json → Json}

/-- The members of a record are found as they were changed. -/
def Finds (f : Json → Json) (members members' : List (String × Json)) : Prop :=
  ∀ key, Json.lookup members' key = (Json.lookup members key).map f

theorem member_eq (himmaterial : Immaterial f) {members members' : List (String × Json)}
    (hfinds : Finds f members members') (key : String) : member members' key = f (member members key) := by
  rw [member, member, hfinds]
  cases Json.lookup members key with
  | none => exact himmaterial.null.symm
  | some j => rfl

theorem trimmedMember_eq (himmaterial : Immaterial f) {members members' : List (String × Json)}
    (hfinds : Finds f members members') (key : String) : trimmedMember members' key = trimmedMember members key := by
  rw [trimmedMember, trimmedMember, hfinds]
  cases Json.lookup members key with
  | none => rfl
  | some j =>
    cases j with
    | null => simp only [Option.map_some, himmaterial.null]
    | bool b => simp only [Option.map_some, himmaterial.bool]
    | int n => simp only [Option.map_some, himmaterial.int]
    | float x => rcases himmaterial.float x with hsame | ⟨-, hsame⟩ <;> simp only [Option.map_some, hsame]
    | str s => simp only [Option.map_some, himmaterial.str]
    | arr items => simp only [Option.map_some, himmaterial.arr]
    | obj members =>
      obtain ⟨members', hsame, -⟩ := himmaterial.obj members
      simp only [Option.map_some, hsame]

theorem literalOf_eq (himmaterial : Immaterial f) {valueType value : Json} {l : Literal}
    (h : literalOf valueType value = .ok l) : literalOf (f valueType) (f value) = .ok l := by
  unfold literalOf at h
  split at h
  · rw [himmaterial.str, himmaterial.int]
    exact h
  · rename_i x
    rw [himmaterial.str]
    rcases himmaterial.float x with hsame | ⟨hinfinite, -⟩
    · rw [hsame]
      exact h
    · rw [if_pos hinfinite] at h
      cases h
  · rw [himmaterial.str, himmaterial.str]
    exact h
  · rw [himmaterial.str, himmaterial.bool]
    exact h
  · cases h

theorem operatorOf_eq {α : Type} (himmaterial : Immaterial f) {ofSymbol? : String → Option α}
    {fault : Json → RecordFault} {j : Json} {op : α} (h : operatorOf ofSymbol? fault j = .ok op) :
    operatorOf ofSymbol? fault (f j) = .ok op := by
  cases j with
  | str s =>
    rw [himmaterial.str]
    exact h
  | _ => cases h

/-- Records, and lists of them, denote the same trees after the change. -/
def Keeps (f : Json → Json) (fuel : ℕ) : Prop :=
  (∀ {j : Json} {t : Expr}, ofJsonWithin fuel j = .ok t → ofJsonWithin fuel (f j) = .ok t) ∧
    ∀ {items : List Json} {ts : List Expr}, argsOfJsonWithin fuel items = .ok ts →
      argsOfJsonWithin fuel (items.map f) = .ok ts

/-- The members of a record that denote a tree denote it as they were changed. -/
theorem record (himmaterial : Immaterial f) {fuel : ℕ} (ih : Keeps f fuel)
    {members members' : List (String × Json)} (hfinds : Finds f members members') {t : Expr}
    (h : ofJsonWithin (fuel + 1) (.obj members) = .ok t) :
    ofJsonWithin (fuel + 1) (.obj members') = .ok t := by
  unfold ofJsonWithin at h ⊢
  rw [himmaterial.member_eq hfinds]
  split at h
  · rename_i htype
    simp only [htype, himmaterial.str, himmaterial.trimmedMember_eq hfinds]
    exact h
  · rename_i htype
    obtain ⟨value, hread, h⟩ := bind_eq_ok.mp h
    simp only [htype, himmaterial.str, himmaterial.member_eq hfinds, himmaterial.literalOf_eq hread]
    exact h
  · rename_i htype
    obtain ⟨op, hread, h⟩ := bind_eq_ok.mp h
    obtain ⟨left, hreadLeft, h⟩ := bind_eq_ok.mp h
    obtain ⟨right, hreadRight, h⟩ := bind_eq_ok.mp h
    simp only [htype, himmaterial.str, himmaterial.member_eq hfinds, himmaterial.operatorOf_eq hread,
      ih.1 hreadLeft, ih.1 hreadRight]
    exact h
  · rename_i htype
    obtain ⟨sign, hread, h⟩ := bind_eq_ok.mp h
    obtain ⟨operand, hreadOperand, h⟩ := bind_eq_ok.mp h
    simp only [htype, himmaterial.str, himmaterial.member_eq hfinds, himmaterial.operatorOf_eq hread,
      ih.1 hreadOperand]
    exact h
  · rename_i htype
    simp only [htype, himmaterial.str, himmaterial.member_eq hfinds, himmaterial.trimmedMember_eq hfinds]
    cases hnamed : Function.ofName? (Text.lower (trimmedMember members "name")) with
    | none =>
      simp only [hnamed] at h
      cases h
    | some function =>
      simp only [hnamed] at h ⊢
      cases hargs : member members "args" with
      | null =>
        rw [hargs] at h
        rw [himmaterial.null]
        exact h
      | arr items =>
        rw [hargs] at h
        obtain ⟨args, hreadArgs, h⟩ := bind_eq_ok.mp h
        simp only [himmaterial.arr, ih.2 hreadArgs]
        exact h
      | _ =>
        rw [hargs] at h
        cases h
  · cases h

theorem records {fuel : ℕ} (ih : Keeps f fuel) {j : Json} {rest : List Json} {ts : List Expr}
    (h : argsOfJsonWithin (fuel + 1) (j :: rest) = .ok ts) :
    argsOfJsonWithin (fuel + 1) (f j :: rest.map f) = .ok ts := by
  unfold argsOfJsonWithin at h ⊢
  obtain ⟨e, hread, h⟩ := bind_eq_ok.mp h
  obtain ⟨others, hreadOthers, h⟩ := bind_eq_ok.mp h
  rw [ih.1 hread, ih.2 hreadOthers]
  exact h

theorem keeps (himmaterial : Immaterial f) (fuel : ℕ) : Keeps f fuel := by
  induction fuel with
  | zero =>
    refine ⟨?_, ?_⟩
    · intro j t h
      cases h
    · intro items ts h
      cases items with
      | nil => exact h
      | cons j rest => cases h
  | succ fuel ih =>
    refine ⟨?_, ?_⟩
    · intro j t h
      cases j with
      | obj members =>
        obtain ⟨members', hsame, hfinds⟩ := himmaterial.obj members
        rw [hsame]
        exact himmaterial.record ih hfinds h
      | _ => cases h
    · intro items ts h
      cases items with
      | nil => exact h
      | cons j rest => exact records ih h

/-- A record denotes the same tree after the change. -/
theorem ofJson_eq (himmaterial : Immaterial f) {j : Json} {t : Expr} (h : ofJson j = .ok t) :
    ofJson (f j) = .ok t := by
  rw [ofJson, himmaterial.size]
  exact (himmaterial.keeps _).1 h

end Immaterial

/-! ## The order of the members -/

theorem immaterial_sortKeys : Immaterial Json.sortKeys where
  null := rfl
  bool _ := rfl
  int _ := rfl
  float _ := .inl rfl
  str _ := rfl
  arr items := congrArg Json.arr (Json.sortKeysItems_eq_map items)
  obj members := ⟨_, Json.sortKeys_obj members, Json.lookup_sortedMembers members⟩
  size := Json.size_sortKeys

/-- Records that are the same with their keys sorted denote the same tree. -/
theorem eq_of_sortKeys {j j' : Json} {t t' : Expr} (h : ofJson j = .ok t) (h' : ofJson j' = .ok t')
    (hsame : j.sortKeys = j'.sortKeys) : t = t' := by
  have hread := immaterial_sortKeys.ofJson_eq h
  rw [hsame, immaterial_sortKeys.ofJson_eq h'] at hread
  cases hread
  rfl

/-! ## Numbers that are not finite -/

theorem immaterial_finite : Immaterial Json.finite where
  null := rfl
  bool _ := rfl
  int _ := rfl
  float x := by
    by_cases hinfinite : (x.isNaN || x.isInf) = true
    · exact .inr ⟨hinfinite, if_pos hinfinite⟩
    · exact .inl (if_neg hinfinite)
  str _ := rfl
  arr items := congrArg Json.arr (Json.finiteItems_eq_map items)
  obj members := ⟨_, rfl, Json.lookup_finiteMembers members⟩
  size := Json.size_finite

/-- A record denotes the same tree with null for the numbers that are not finite. -/
theorem ofJson_finite {j : Json} {t : Expr} (h : ofJson j = .ok t) : ofJson j.finite = .ok t :=
  immaterial_finite.ofJson_eq h

end AdhocReport.Expr
