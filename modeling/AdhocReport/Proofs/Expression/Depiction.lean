import AdhocReport.Proofs.Expression.Reading
set_option autoImplicit false

/-!
# Expressions: what a record depicts

Which JSON value is the record of which tree, said without the reader: each node has its type, its own
members have values of their kinds, and its children depict the operands.  The reader returns a tree exactly
if the value depicts it and every integer is within the range of doubles.  It fails in a way of its own, and
not because the value is malformed, exactly if the first thing in its way is a list or an object in the place
of an operator, or an integer beyond that range.
-/

namespace AdhocReport

open Outcome (bind_ok bind_eq_ok)

/-! ## Literals -/

/-- The literal is no infinite and no missing number. -/
def Literal.Proper (l : Literal) : Prop := ∀ x, l = .float x → Decimal.IsFinite x

/-- The literal is no integer beyond the range of doubles. -/
def Literal.InRange (l : Literal) : Prop := ∀ n, l = .int n → (n.natAbs : ℚ) < Decimal.limit

theorem Literal.fault?_eq_none {l : Literal} : l.fault? = none ↔ l.Proper ∧ l.InRange := by
  cases l with
  | int n => simp [fault?_int, Proper, InRange]
  | float x => simp [fault?_float, Proper, InRange]
  | text s => simp [fault?, Proper, InRange]
  | truth b => simp [fault?, Proper, InRange]

theorem Literal.fault?_eq_tooLarge {n : ℤ} :
    (Literal.int n).fault? = some .tooLarge ↔ Decimal.limit ≤ (n.natAbs : ℚ) := by
  rw [← not_lt, ← fault?_int, fault?]
  split <;> simp

namespace Expr

theorem literalOf_eq_ok {valueType value : Json} {l : Literal} :
    literalOf valueType value = .ok l ↔
      valueType = .str l.typeName ∧ value = l.toJson ∧ l.fault? = none := by
  constructor
  · intro h
    unfold literalOf at h
    split at h
    · split at h <;> cases h
      exact ⟨rfl, rfl, by rw [Literal.fault?, if_neg (by assumption)]⟩
    · split at h <;> cases h
      exact ⟨rfl, rfl, by rw [Literal.fault?, if_neg (by assumption)]⟩
    · cases h
      exact ⟨rfl, rfl, rfl⟩
    · cases h
      exact ⟨rfl, rfl, rfl⟩
    · cases h
  · rintro ⟨rfl, rfl, hnone⟩
    rw [literalOf_record, unlessRefused, List.findSome?_singleton, hnone]

theorem literalOf_eq_error {valueType value : Json} {fault : RecordFault} (hfault : fault.isMalformed = false) :
    literalOf valueType value = .error fault ↔
      fault = .tooLarge ∧ ∃ n : ℤ, valueType = .str "number" ∧ value = .int n ∧
        Decimal.limit ≤ (n.natAbs : ℚ) := by
  constructor
  · intro h
    unfold literalOf at h
    split at h
    · rename_i n
      split at h <;> cases h
      refine ⟨rfl, n, rfl, rfl, Literal.fault?_eq_tooLarge.mp ?_⟩
      rw [Literal.fault?, if_pos (by assumption)]
    · split at h <;> cases h
      cases hfault
    · cases h
    · cases h
    · cases h
      cases hfault
  · rintro ⟨rfl, n, rfl, rfl, hlarge⟩
    have hrefused := literalOf_record (.int n)
    rw [unlessRefused, List.findSome?_singleton, Literal.fault?_eq_tooLarge.mpr hlarge] at hrefused
    exact hrefused

/-! ## Operators -/

/-- The value is a list or an object, of the kind named. -/
inductive Compound : Json → String → Prop
  | list (items : List Json) : Compound (.arr items) "list"
  | object (members : List (String × Json)) : Compound (.obj members) "dict"

section

variable {α : Type} {ofSymbol? : String → Option α} {malformed : Json → RecordFault} {j : Json}

theorem operatorOf_eq_ok {op : α} :
    operatorOf ofSymbol? malformed j = .ok op ↔ ∃ s, j = .str s ∧ ofSymbol? s = some op := by
  cases j with
  | str s =>
    rw [operatorOf]
    cases hop : ofSymbol? s <;> simp [hop]
  | _ => simp [operatorOf]

theorem operatorOf_eq_error {fault : RecordFault} (hmalformed : ∀ j, (malformed j).isMalformed = true)
    (hfault : fault.isMalformed = false) :
    operatorOf ofSymbol? malformed j = .error fault ↔ ∃ kind, Compound j kind ∧ fault = .compound kind := by
  have hother : malformed j ≠ fault := by
    rintro rfl
    rw [hmalformed] at hfault
    cases hfault
  constructor
  · intro h
    cases j with
    | arr items => exact ⟨_, .list items, (Except.error.inj h).symm⟩
    | obj members => exact ⟨_, .object members, (Except.error.inj h).symm⟩
    | str s =>
      rw [operatorOf] at h
      split at h
      · cases h
      · exact absurd (Except.error.inj h) hother
    | _ => exact absurd (Except.error.inj h) hother
  · rintro ⟨kind, hcompound | hcompound, rfl⟩ <;> rfl

end

/-! ## Records of trees -/

/-- The object is a node of this type. -/
def HasType (members : List (String × Json)) (type : String) : Prop := member members "type" = .str type

/-- The member is a text that is this id, apart from blanks around it. -/
def Names (members : List (String × Json)) (key id : String) : Prop :=
  id ≠ "" ∧ ∃ s, member members key = .str s ∧ Text.trim s = id

/-- The node calls this function: its name is written in any case, with blanks around it. -/
def Calls (members : List (String × Json)) (function : Function) : Prop :=
  ∃ s, member members "name" = .str s ∧ Text.lower (Text.trim s) = function.name

/-- The JSON value is the record of the tree. -/
inductive Depicts : Json → Expr → Prop
  | column {members : List (String × Json)} {ref : FieldRef} : HasType members "column" →
      Names members "model_id" ref.model → Names members "field_id" ref.field →
      Depicts (.obj members) (.column ref)
  | literal {members : List (String × Json)} {l : Literal} : HasType members "literal" →
      member members "value_type" = .str l.typeName → member members "value" = l.toJson → l.Proper →
      Depicts (.obj members) (.literal l)
  | binary {members : List (String × Json)} {op : Operator} {left right : Expr} : HasType members "binary" →
      member members "operator" = .str op.symbol → Depicts (member members "left") left →
      Depicts (member members "right") right → Depicts (.obj members) (.binary op left right)
  | unary {members : List (String × Json)} {sign : Sign} {operand : Expr} : HasType members "unary" →
      member members "operator" = .str sign.symbol → Depicts (member members "argument") operand →
      Depicts (.obj members) (.unary sign operand)
  | call {members : List (String × Json)} {function : Function} {items : List Json} {args : List Expr} :
      HasType members "function" → Calls members function →
      argItems? (member members "args") = some items → List.Forall₂ Depicts items args →
      Depicts (.obj members) (.call function args)

/-- The value depicts the tree, and no integer in it is beyond the range of doubles. -/
def Reads (j : Json) (e : Expr) : Prop := Depicts j e ∧ ∀ l ∈ e.literals, l.InRange

theorem names_iff {members : List (String × Json)} {key id : String} :
    Names members key id ↔ id ≠ "" ∧ trimmedMember members key = id := by
  rw [Names, trimmedMember_eq]
  refine and_congr_right fun hfilled => ?_
  cases member members key with
  | str s => simp
  | _ => simpa using Ne.symm hfilled

theorem calls_iff {members : List (String × Json)} {function : Function} :
    Calls members function ↔
      Function.ofName? (Text.lower (trimmedMember members "name")) = some function := by
  have hempty : Text.lower "" ≠ function.name := by cases function <;> decide
  rw [Function.ofName?_eq_some_iff, Calls, trimmedMember_eq]
  cases member members "name" with
  | str s => simp [eq_comm]
  | _ => simpa using hempty.symm

/-! ## What is read -/

theorem Reads.binary {j : Json} {op : Operator} {left right : Expr} :
    Reads j (.binary op left right) ↔ ∃ members, j = .obj members ∧ HasType members "binary" ∧
      member members "operator" = .str op.symbol ∧ Reads (member members "left") left ∧
      Reads (member members "right") right := by
  constructor
  · rintro ⟨hdepicts, hrange⟩
    obtain ⟨hleft, hright⟩ := List.forall_mem_append.mp hrange
    cases hdepicts with
    | binary htype hop hl hr => exact ⟨_, rfl, htype, hop, ⟨hl, hleft⟩, hr, hright⟩
  · rintro ⟨members, rfl, htype, hop, hl, hr⟩
    exact ⟨.binary htype hop hl.1 hr.1, List.forall_mem_append.mpr ⟨hl.2, hr.2⟩⟩

theorem Reads.unary {j : Json} {sign : Sign} {operand : Expr} :
    Reads j (.unary sign operand) ↔ ∃ members, j = .obj members ∧ HasType members "unary" ∧
      member members "operator" = .str sign.symbol ∧ Reads (member members "argument") operand := by
  constructor
  · rintro ⟨hdepicts, hrange⟩
    cases hdepicts with
    | unary htype hop he => exact ⟨_, rfl, htype, hop, he, hrange⟩
  · rintro ⟨members, rfl, htype, hop, he⟩
    exact ⟨.unary htype hop he.1, he.2⟩

theorem forall₂_reads {items : List Json} {args : List Expr} :
    List.Forall₂ Reads items args ↔
      List.Forall₂ Depicts items args ∧ ∀ l ∈ literalsOfArgs args, l.InRange := by
  constructor
  · intro h
    induction h with
    | nil => exact ⟨.nil, List.forall_mem_nil _⟩
    | cons hfirst _ ih => exact ⟨.cons hfirst.1 ih.1, List.forall_mem_append.mpr ⟨hfirst.2, ih.2⟩⟩
  · rintro ⟨hdepicts, hrange⟩
    induction hdepicts with
    | nil => exact .nil
    | cons hfirst _ ih =>
      obtain ⟨hrangeFirst, hrangeRest⟩ := List.forall_mem_append.mp hrange
      exact .cons ⟨hfirst, hrangeFirst⟩ (ih hrangeRest)

theorem Reads.call {j : Json} {function : Function} {args : List Expr} :
    Reads j (.call function args) ↔ ∃ members items, j = .obj members ∧ HasType members "function" ∧
      Calls members function ∧ argItems? (member members "args") = some items ∧
      List.Forall₂ Reads items args := by
  constructor
  · rintro ⟨hdepicts, hrange⟩
    cases hdepicts with
    | call htype hcalls hitems hargs =>
      exact ⟨_, _, rfl, htype, hcalls, hitems, forall₂_reads.mpr ⟨hargs, hrange⟩⟩
  · rintro ⟨members, items, rfl, htype, hcalls, hitems, hargs⟩
    obtain ⟨hdepicts, hrange⟩ := forall₂_reads.mp hargs
    exact ⟨.call htype hcalls hitems hdepicts, hrange⟩

theorem Reads.literal {j : Json} {l : Literal} :
    Reads j (.literal l) ↔ ∃ members, j = .obj members ∧ HasType members "literal" ∧
      literalOf (member members "value_type") (member members "value") = .ok l := by
  simp only [literalOf_eq_ok, Literal.fault?_eq_none]
  constructor
  · rintro ⟨hdepicts, hrange⟩
    cases hdepicts with
    | literal htype hkind hvalue hproper =>
      exact ⟨_, rfl, htype, hkind, hvalue, hproper, List.forall_mem_singleton.mp hrange⟩
  · rintro ⟨members, rfl, htype, hkind, hvalue, hproper, hrange⟩
    exact ⟨.literal htype hkind hvalue hproper, List.forall_mem_singleton.mpr hrange⟩

theorem Reads.column {j : Json} {ref : FieldRef} :
    Reads j (.column ref) ↔ ∃ members, j = .obj members ∧ HasType members "column" ∧
      Names members "model_id" ref.model ∧ Names members "field_id" ref.field := by
  constructor
  · rintro ⟨hdepicts, -⟩
    cases hdepicts with
    | column htype hmodel hfield => exact ⟨_, rfl, htype, hmodel, hfield⟩
  · rintro ⟨members, rfl, htype, hmodel, hfield⟩
    exact ⟨.column htype hmodel hfield, List.forall_mem_nil _⟩

/-- The type of the node that a tree has at its root. -/
def nodeType : Expr → String
  | .column _ => "column"
  | .literal _ => "literal"
  | .binary _ _ _ => "binary"
  | .unary _ _ => "unary"
  | .call _ _ => "function"

/-- What a reader returns tells the type of the node. -/
theorem hasType_of_ok {j : Json} {e : Expr} (h : ofJson j = .ok e) :
    ∃ members, j = .obj members ∧ HasType members e.nodeType := by
  cases j with
  | obj members =>
    refine ⟨members, rfl, ?_⟩
    by_cases hunknown : ∀ type ∈ nodeTypes, member members "type" ≠ .str type
    · rw [ofJson_unknown hunknown] at h
      cases h
    · push Not at hunknown
      obtain ⟨type, hmem, htype⟩ := hunknown
      simp only [nodeTypes, List.mem_cons, List.not_mem_nil, or_false] at hmem
      rcases hmem with rfl | rfl | rfl | rfl | rfl
      · rw [ofJson_column htype] at h
        split at h <;> cases h
        exact htype
      · rw [ofJson_literal htype] at h
        obtain ⟨value, -, h⟩ := bind_eq_ok.mp h
        cases h
        exact htype
      · rw [ofJson_binary htype] at h
        obtain ⟨op, -, h⟩ := bind_eq_ok.mp h
        obtain ⟨left, -, h⟩ := bind_eq_ok.mp h
        obtain ⟨right, -, h⟩ := bind_eq_ok.mp h
        cases h
        exact htype
      · rw [ofJson_unary htype] at h
        obtain ⟨sign, -, h⟩ := bind_eq_ok.mp h
        obtain ⟨operand, -, h⟩ := bind_eq_ok.mp h
        cases h
        exact htype
      · rw [ofJson_call htype] at h
        split at h
        · cases h
        · cases h
        · obtain ⟨args, -, h⟩ := bind_eq_ok.mp h
          cases h
          exact htype
  | _ => cases h

/-- A record is read as a tree with this root only if it has the type of the root. -/
theorem ofJson_eq_ok_iff_of_type {j : Json} {e : Expr} {P : List (String × Json) → Prop}
    (h : ∀ members, HasType members e.nodeType → (ofJson (.obj members) = .ok e ↔ P members)) :
    ofJson j = .ok e ↔ ∃ members, j = .obj members ∧ HasType members e.nodeType ∧ P members := by
  constructor
  · intro hread
    obtain ⟨members, rfl, htype⟩ := hasType_of_ok hread
    exact ⟨members, rfl, htype, (h members htype).mp hread⟩
  · rintro ⟨members, rfl, htype, hrest⟩
    exact (h members htype).mpr hrest

mutual

/-- A reader returns a tree exactly if the value is its record and no integer in it is too large. -/
theorem ofJson_eq_ok_iff : (e : Expr) → {j : Json} → (ofJson j = .ok e ↔ Reads j e)
  | .column ref, j => by
    rw [Reads.column]
    refine ofJson_eq_ok_iff_of_type fun members htype => ?_
    rw [ofJson_column htype, names_iff, names_iff]
    constructor
    · intro h
      split at h
      · cases h
      · rename_i hfilled
        cases h
        simp only [Bool.or_eq_true, beq_iff_eq, not_or] at hfilled
        exact ⟨⟨hfilled.1, rfl⟩, hfilled.2, rfl⟩
    · rintro ⟨⟨hmodel, hm⟩, hfield, hf⟩
      rw [hm, hf, if_neg (by simp [hmodel, hfield])]
  | .literal l, j => by
    rw [Reads.literal]
    refine ofJson_eq_ok_iff_of_type fun members htype => ?_
    rw [ofJson_literal htype, bind_eq_ok]
    simp
  | .binary op left right, j => by
    rw [Reads.binary]
    refine ofJson_eq_ok_iff_of_type fun members htype => ?_
    rw [ofJson_binary htype, ← ofJson_eq_ok_iff left, ← ofJson_eq_ok_iff right]
    simp only [bind_eq_ok, operatorOf_eq_ok, Operator.ofSymbol?_eq_some_iff]
    constructor
    · rintro ⟨op', ⟨s, hs, rfl⟩, left', hl, right', hr, h⟩
      cases h
      exact ⟨hs, hl, hr⟩
    · rintro ⟨hs, hl, hr⟩
      exact ⟨op, ⟨_, hs, rfl⟩, left, hl, right, hr, rfl⟩
  | .unary sign operand, j => by
    rw [Reads.unary]
    refine ofJson_eq_ok_iff_of_type fun members htype => ?_
    rw [ofJson_unary htype, ← ofJson_eq_ok_iff operand]
    simp only [bind_eq_ok, operatorOf_eq_ok, Sign.ofSymbol?_eq_some_iff]
    constructor
    · rintro ⟨sign', ⟨s, hs, rfl⟩, operand', he, h⟩
      cases h
      exact ⟨hs, he⟩
    · rintro ⟨hs, he⟩
      exact ⟨sign, ⟨_, hs, rfl⟩, operand, he, rfl⟩
  | .call function args, j => by
    rw [Reads.call]
    have hargs : ∀ items : List Json, items.mapM ofJson = .ok args ↔ List.Forall₂ Reads items args :=
      fun items => Outcome.mapM_eq_ok.trans (forall₂_ofJson_iff args)
    constructor
    · intro h
      obtain ⟨members, rfl, htype⟩ := hasType_of_ok h
      rw [ofJson_call htype] at h
      split at h
      · cases h
      · cases h
      · rename_i items hname hitems
        obtain ⟨args', hread, h⟩ := bind_eq_ok.mp h
        cases h
        exact ⟨members, items, rfl, htype, calls_iff.mpr hname, hitems, (hargs items).mp hread⟩
    · rintro ⟨members, items, rfl, htype, hcalls, hitems, hread⟩
      rw [ofJson_call htype, calls_iff.mp hcalls, hitems]
      simp only [(hargs items).mpr hread, bind_ok]

theorem forall₂_ofJson_iff : (args : List Expr) → {items : List Json} →
    (List.Forall₂ (fun j e => ofJson j = .ok e) items args ↔ List.Forall₂ Reads items args)
  | [], items => by rw [List.forall₂_nil_right_iff, List.forall₂_nil_right_iff]
  | e :: rest, items => by
    rw [List.forall₂_cons_right_iff, List.forall₂_cons_right_iff]
    simp only [ofJson_eq_ok_iff e, forall₂_ofJson_iff rest]

end

end Expr

end AdhocReport
