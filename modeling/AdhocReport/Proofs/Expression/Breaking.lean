import AdhocReport.Proofs.Expression.Depiction
set_option autoImplicit false

/-!
# Expressions: what stops a reader

A malformed value is refused with a fault that says so.  Two other things stop a reader: a list or an object
in the place of an operator, which cannot be looked up, and an integer that no double comes near, which
cannot be tested for being finite.  A record is read in order, its own members first and then its children
from left to right, so these matter only where nothing before them is malformed.
-/

namespace AdhocReport.Expr

open Outcome (bind_ok bind_eq_ok bind_eq_error)

/-- Reading the value comes to something that stops the reader, before anything malformed. -/
inductive Breaks : Json → RecordFault → Prop
  | tooLarge {members : List (String × Json)} {n : ℤ} : HasType members "literal" →
      member members "value_type" = .str "number" → member members "value" = .int n →
      Decimal.limit ≤ (n.natAbs : ℚ) → Breaks (.obj members) .tooLarge
  | operator {members : List (String × Json)} {type kind : String} : type ∈ ["binary", "unary"] →
      HasType members type → Compound (member members "operator") kind → Breaks (.obj members) (.compound kind)
  | left {members : List (String × Json)} {op : Operator} {fault : RecordFault} : HasType members "binary" →
      member members "operator" = .str op.symbol → Breaks (member members "left") fault →
      Breaks (.obj members) fault
  | right {members : List (String × Json)} {op : Operator} {l : Expr} {fault : RecordFault} :
      HasType members "binary" → member members "operator" = .str op.symbol →
      Reads (member members "left") l → Breaks (member members "right") fault → Breaks (.obj members) fault
  | operand {members : List (String × Json)} {sign : Sign} {fault : RecordFault} : HasType members "unary" →
      member members "operator" = .str sign.symbol → Breaks (member members "argument") fault →
      Breaks (.obj members) fault
  | argument {members : List (String × Json)} {function : Function} {before after : List Json} {j : Json}
      {es : List Expr} {fault : RecordFault} : HasType members "function" → Calls members function →
      argItems? (member members "args") = some (before ++ j :: after) → List.Forall₂ Reads before es →
      Breaks j fault → Breaks (.obj members) fault

theorem mapM_ofJson_eq_ok {items : List Json} {args : List Expr} :
    items.mapM ofJson = .ok args ↔ List.Forall₂ Reads items args :=
  Outcome.mapM_eq_ok.trans (forall₂_ofJson_iff args)

theorem operatorOf_binary {s : Json} {op : Operator} :
    operatorOf Operator.ofSymbol? .badBinary s = .ok op ↔ s = .str op.symbol := by
  simp [operatorOf_eq_ok, Operator.ofSymbol?_eq_some_iff]

theorem operatorOf_unary {s : Json} {sign : Sign} :
    operatorOf Sign.ofSymbol? .badUnary s = .ok sign ↔ s = .str sign.symbol := by
  simp [operatorOf_eq_ok, Sign.ofSymbol?_eq_some_iff]

/-! ## What stops a reader makes it fail -/

theorem Breaks.fails {j : Json} {fault : RecordFault} (h : Breaks j fault) :
    ofJson j = .error fault ∧ fault.isMalformed = false := by
  induction h with
  | tooLarge htype hkind hvalue hlarge =>
    refine ⟨?_, rfl⟩
    rw [ofJson_literal htype, bind_eq_error]
    exact .inl ((literalOf_eq_error rfl).mpr ⟨rfl, _, hkind, hvalue, hlarge⟩)
  | operator hmem htype hcompound =>
    refine ⟨?_, rfl⟩
    simp only [List.mem_cons, List.not_mem_nil, or_false] at hmem
    rcases hmem with rfl | rfl
    · rw [ofJson_binary htype, bind_eq_error]
      exact .inl ((operatorOf_eq_error (fun _ => rfl) rfl).mpr ⟨_, hcompound, rfl⟩)
    · rw [ofJson_unary htype, bind_eq_error]
      exact .inl ((operatorOf_eq_error (fun _ => rfl) rfl).mpr ⟨_, hcompound, rfl⟩)
  | left htype hop _ ih =>
    refine ⟨?_, ih.2⟩
    rw [ofJson_binary htype, operatorOf_binary.mpr hop, bind_ok, ih.1]
    rfl
  | right htype hop hleft _ ih =>
    refine ⟨?_, ih.2⟩
    rw [ofJson_binary htype, operatorOf_binary.mpr hop, bind_ok, (ofJson_eq_ok_iff _).mpr hleft, bind_ok, ih.1]
    rfl
  | operand htype hop _ ih =>
    refine ⟨?_, ih.2⟩
    rw [ofJson_unary htype, operatorOf_unary.mpr hop, bind_ok, ih.1]
    rfl
  | @argument members function before after j es fault htype hcalls hitems hbefore _ ih =>
    refine ⟨?_, ih.2⟩
    have hread : (before ++ j :: after).mapM ofJson = .error fault :=
      Outcome.mapM_eq_error.mpr ⟨before, j, after, es, rfl, mapM_ofJson_eq_ok.mpr hbefore, ih.1⟩
    rw [ofJson_call htype, calls_iff.mp hcalls, hitems]
    simp only [hread]
    rfl

/-! ## A reader fails otherwise only if it is stopped -/

/-- The arguments of a call have items that are listed, or none. -/
theorem argItems?_eq_some {args : Json} {items : List Json} :
    argItems? args = some items ↔ (args = .null ∧ items = []) ∨ args = .arr items := by
  cases args with
  | null => simp [argItems?, eq_comm]
  | arr _ => simp [argItems?]
  | _ => simp [argItems?]

/-- A node at which a reader fails otherwise is stopped there or at one of its children, which are smaller. -/
theorem breaks_of_record {members : List (String × Json)} {fault : RecordFault}
    (ih : ∀ j : Json, j.size < (Json.obj members).size → ofJson j = .error fault → Breaks j fault)
    (h : ofJson (.obj members) = .error fault) (hfault : fault.isMalformed = false) :
    Breaks (.obj members) fault := by
  have hsmaller : ∀ {type}, HasType members type → ∀ key, (member members key).size < (Json.obj members).size := by
    intro type htype key
    rw [Json.size]
    exact Nat.lt_succ_of_le (size_member_le htype key)
  by_cases hunknown : ∀ type ∈ nodeTypes, member members "type" ≠ .str type
  · rw [ofJson_unknown hunknown] at h
    cases h
    cases hfault
  push Not at hunknown
  obtain ⟨type, hmem, htype⟩ := hunknown
  simp only [nodeTypes, List.mem_cons, List.not_mem_nil, or_false] at hmem
  rcases hmem with rfl | rfl | rfl | rfl | rfl
  · rw [ofJson_column htype] at h
    split at h <;> cases h
    cases hfault
  · rw [ofJson_literal htype] at h
    rcases bind_eq_error.mp h with h | ⟨l, -, h⟩
    · obtain ⟨rfl, n, hkind, hvalue, hlarge⟩ := (literalOf_eq_error hfault).mp h
      exact .tooLarge htype hkind hvalue hlarge
    · cases h
  · rw [ofJson_binary htype] at h
    rcases bind_eq_error.mp h with h | ⟨op, hop, h⟩
    · obtain ⟨kind, hcompound, rfl⟩ := (operatorOf_eq_error (fun _ => rfl) hfault).mp h
      exact .operator (by decide) htype hcompound
    have hop := operatorOf_binary.mp hop
    rcases bind_eq_error.mp h with h | ⟨left, hleft, h⟩
    · exact .left htype hop (ih _ (hsmaller htype _) h)
    have hleft := (ofJson_eq_ok_iff left).mp hleft
    rcases bind_eq_error.mp h with h | ⟨right, -, h⟩
    · exact .right htype hop hleft (ih _ (hsmaller htype _) h)
    · cases h
  · rw [ofJson_unary htype] at h
    rcases bind_eq_error.mp h with h | ⟨sign, hsign, h⟩
    · obtain ⟨kind, hcompound, rfl⟩ := (operatorOf_eq_error (fun _ => rfl) hfault).mp h
      exact .operator (by decide) htype hcompound
    have hsign := operatorOf_unary.mp hsign
    rcases bind_eq_error.mp h with h | ⟨operand, -, h⟩
    · exact .operand htype hsign (ih _ (hsmaller htype _) h)
    · cases h
  · rw [ofJson_call htype] at h
    split at h
    · cases h
      cases hfault
    · cases h
      cases hfault
    · rename_i function items hname hitems
      rcases bind_eq_error.mp h with h | ⟨args, -, h⟩
      · obtain ⟨before, j, after, es, rfl, hbefore, hj⟩ := Outcome.mapM_eq_error.mp h
        refine .argument htype (calls_iff.mpr hname) hitems (mapM_ofJson_eq_ok.mp hbefore) (ih j ?_ hj)
        have hargs := argItems?_eq_some.mp hitems |>.resolve_left fun h => by simp at h
        have hitem := Json.size_le_of_mem (List.mem_append_right before (List.mem_cons_self (l := after) (a := j)))
        have hlist := hsmaller htype "args"
        rw [hargs, Json.size] at hlist
        omega
      · cases h

/-- A reader fails, and not because the value is malformed, exactly if something stops it. -/
theorem breaks_iff {j : Json} {fault : RecordFault} :
    Breaks j fault ↔ ofJson j = .error fault ∧ fault.isMalformed = false := by
  refine ⟨Breaks.fails, ?_⟩
  rintro ⟨h, hfault⟩
  induction hsize : j.size using Nat.strongRecOn generalizing j with
  | ind size ih =>
    subst hsize
    cases j with
    | obj members => exact breaks_of_record (fun j hj hread => ih _ hj hread rfl) h hfault
    | _ =>
      cases h
      cases hfault

/-! ## Records of trees -/

mutual

/-- The record of a tree is read, unless an integer in it is too large. -/
theorem reads_or_breaks : (e : Expr) → {j : Json} → Depicts j e → Reads j e ∨ Breaks j .tooLarge
  | .column _, _, h => .inl ⟨h, List.forall_mem_nil _⟩
  | .literal l, _, h => by
    by_cases hrange : l.InRange
    · exact .inl ⟨h, List.forall_mem_singleton.mpr hrange⟩
    · unfold Literal.InRange at hrange
      push Not at hrange
      obtain ⟨n, rfl, hlarge⟩ := hrange
      cases h with
      | literal htype hkind hvalue _ => exact .inr (.tooLarge htype hkind hvalue hlarge)
  | .binary op left right, _, h => by
    cases h with
    | binary htype hop hl hr =>
      rcases reads_or_breaks left hl with hl | hl
      · rcases reads_or_breaks right hr with hr | hr
        · exact .inl (Reads.binary.mpr ⟨_, rfl, htype, hop, hl, hr⟩)
        · exact .inr (.right htype hop hl hr)
      · exact .inr (.left htype hop hl)
  | .unary sign operand, _, h => by
    cases h with
    | unary htype hop he =>
      rcases reads_or_breaks operand he with he | he
      · exact .inl (Reads.unary.mpr ⟨_, rfl, htype, hop, he⟩)
      · exact .inr (.operand htype hop he)
  | .call function args, _, h => by
    cases h with
    | call htype hcalls hitems hargs =>
      rcases reads_or_breaks_of_args args hargs with hargs | ⟨before, j, after, es, rfl, hbefore, hj⟩
      · exact .inl (Reads.call.mpr ⟨_, _, rfl, htype, hcalls, hitems, hargs⟩)
      · exact .inr (.argument htype hcalls hitems hbefore hj)

theorem reads_or_breaks_of_args : (args : List Expr) → {items : List Json} → List.Forall₂ Depicts items args →
    List.Forall₂ Reads items args ∨ ∃ before j after es, items = before ++ j :: after ∧
      List.Forall₂ Reads before es ∧ Breaks j .tooLarge
  | [], _, .nil => .inl .nil
  | e :: rest, j :: items, .cons hfirst hrest => by
    rcases reads_or_breaks e hfirst with hfirst | hfirst
    · rcases reads_or_breaks_of_args rest hrest with hrest | ⟨before, k, after, es, rfl, hbefore, hk⟩
      · exact .inl (.cons hfirst hrest)
      · exact .inr ⟨j :: before, k, after, e :: es, rfl, .cons hfirst hbefore, hk⟩
    · exact .inr ⟨[], j, items, [], rfl, .nil, hfirst⟩

end

/-- What is read is what is depicted, as long as nothing stops the reader. -/
theorem reads_iff {j : Json} {e : Expr} : Reads j e ↔ (∀ fault, ¬Breaks j fault) ∧ Depicts j e := by
  constructor
  · intro h
    refine ⟨fun fault hbreaks => ?_, h.1⟩
    have hfails := hbreaks.fails.1
    rw [(ofJson_eq_ok_iff e).mpr h] at hfails
    cases hfails
  · rintro ⟨hnone, h⟩
    exact (reads_or_breaks e h).resolve_right (hnone _)

end AdhocReport.Expr
