import AdhocReport.Proofs.Expression.Depiction
import AdhocReport.Proofs.Json.Equality
set_option autoImplicit false

/-!
# Expressions: records of one tree

A tree has many records.  Members that no reader asks for, blanks around an id, blanks around the name of a
function and its letter case, and arguments that are missing, null or empty make no difference.  The record
that a tree is written as is one of them, it is read back as the tree, and it belongs to no other tree.
-/

namespace AdhocReport

namespace Text

/-- The text is this one with blanks around it. -/
def Pads (core s : String) : Prop :=
  ∃ before after : List Char, (∀ c ∈ before ++ after, isBlank c = true) ∧
    s.toList = before ++ core.toList ++ after

/-- Neither the first nor the last character of the text is a blank. -/
def Bounded (s : String) : Prop :=
  (∀ c ∈ s.toList.head?, isBlank c = false) ∧ ∀ c ∈ s.toList.getLast?, isBlank c = false

theorem dropWhile_blanks {bs : List Char} (h : ∀ c ∈ bs, isBlank c = true) : bs.dropWhile isBlank = [] :=
  List.dropWhile_eq_nil_iff.mpr h

theorem trimEnd_blanks_behind {bs : List Char} (h : ∀ c ∈ bs, isBlank c = true) (cs : List Char) :
    trimEnd (cs ++ bs) = trimEnd cs := by
  have hblanks : ∀ c ∈ bs.reverse, isBlank c = true := fun c hc => h c (List.mem_reverse.mp hc)
  rw [trimEnd, List.reverse_append, List.dropWhile_append_of_pos hblanks, trimEnd]

/-- Blanks around a text do not matter once it is trimmed. -/
theorem trim_of_pads {core s : String} (h : Pads core s) : trim s = trim core := by
  obtain ⟨before, after, hblanks, hs⟩ := h
  obtain ⟨hbefore, hafter⟩ := List.forall_mem_append.mp hblanks
  rw [trim, trim, hs, trimChars, trimChars, List.append_assoc, List.dropWhile_append_of_pos hbefore,
    List.dropWhile_append]
  split
  · rename_i hnone
    rw [dropWhile_blanks hafter, List.isEmpty_iff.mp hnone]
  · rw [trimEnd_blanks_behind hafter]

theorem pads_self (s : String) : Pads s s := ⟨[], [], List.forall_mem_nil _, by simp⟩

/-- A text is what is left of it once it is trimmed, with the blanks that were dropped around it. -/
theorem pads_trim (s : String) : Pads (trim s) s := by
  let front := s.toList.dropWhile isBlank
  refine ⟨s.toList.takeWhile isBlank, (front.reverse.takeWhile isBlank).reverse, fun c hc => ?_, ?_⟩
  · rcases List.mem_append.mp hc with hc | hc
    · exact List.mem_takeWhile_imp hc
    · exact List.mem_takeWhile_imp (List.mem_reverse.mp hc)
  · have hfront : front = trimEnd front ++ (front.reverse.takeWhile isBlank).reverse := by
      rw [trimEnd, ← List.reverse_append, List.takeWhile_append_dropWhile, List.reverse_reverse]
    rw [trim, String.toList_ofList, trimChars, List.append_assoc, ← hfront, List.takeWhile_append_dropWhile]

theorem dropWhile_of_head {cs : List Char} (h : ∀ c ∈ cs.head?, isBlank c = false) :
    cs.dropWhile isBlank = cs := by
  cases cs with
  | nil => rfl
  | cons c cs => rw [List.dropWhile_cons_of_neg (by simp [h c rfl])]

theorem head_dropWhile (cs : List Char) : ∀ c ∈ (cs.dropWhile isBlank).head?, isBlank c = false := by
  intro c hc
  have hfirst := List.head?_dropWhile_not isBlank cs
  rw [Option.mem_def.mp hc] at hfirst
  simpa using hfirst

/-- A text without blanks has none at its ends. -/
theorem bounded_of_solid {s : String} (h : (s.toList.any isBlank) = false) : Bounded s := by
  rw [List.any_eq_false] at h
  exact ⟨fun c hc => Bool.eq_false_iff.mpr (h c (List.mem_of_head? hc)),
    fun c hc => Bool.eq_false_iff.mpr (h c (List.mem_of_getLast? hc))⟩

theorem bounded_trim (s : String) : Bounded (trim s) := by
  rw [Bounded, trim, String.toList_ofList]
  refine ⟨?_, ?_⟩
  · rw [← dropWhile_trimChars]
    exact head_dropWhile _
  · rw [trimChars, trimEnd, List.getLast?_reverse]
    exact head_dropWhile _

theorem trim_of_bounded {s : String} (h : Bounded s) : trim s = s := by
  have hback : s.toList.reverse.dropWhile isBlank = s.toList.reverse :=
    dropWhile_of_head (by rw [List.head?_reverse]; exact h.2)
  rw [trim, trimChars, dropWhile_of_head h.1, trimEnd, hback, List.reverse_reverse, String.ofList_toList]

end Text

theorem Operator.eq_of_symbol {op op' : Operator} (h : op.symbol = op'.symbol) : op = op' :=
  Option.some.inj ((ofSymbol?_eq_some_iff.mpr h).symm.trans (ofSymbol?_eq_some_iff.mpr rfl))

theorem Sign.eq_of_symbol {sign sign' : Sign} (h : sign.symbol = sign'.symbol) : sign = sign' :=
  Option.some.inj ((ofSymbol?_eq_some_iff.mpr h).symm.trans (ofSymbol?_eq_some_iff.mpr rfl))

theorem Function.eq_of_name {f f' : Function} (h : f.name = f'.name) : f = f' :=
  Option.some.inj ((ofName?_eq_some_iff.mpr h).symm.trans (ofName?_eq_some_iff.mpr rfl))

theorem Literal.keyed_toJson (l : Literal) : l.toJson.Keyed := by
  cases l <;> constructor

namespace Expr

/-! ## Variants of a record -/

/-- The two members are one id, or one thing that is none, apart from blanks around it. -/
inductive SameId : Json → Json → Prop
  | same (j : Json) : SameId j j
  | padded {core s s' : String} : Text.Pads core s → Text.Pads core s' → SameId (.str s) (.str s')

/-- The two members name one function, apart from letter case and blanks around it. -/
inductive SameName : Json → Json → Prop
  | same (j : Json) : SameName j j
  | written {core core' s s' : String} : Text.Bounded core → Text.Bounded core' →
      Text.lower core = Text.lower core' → Text.Pads core s → Text.Pads core' s' → SameName (.str s) (.str s')

/-- The values differ only in what makes no difference to a reader. -/
inductive Variant : Json → Json → Prop
  | same (j : Json) : Variant j j
  | column {ms ms' : List (String × Json)} : HasType ms "column" → HasType ms' "column" →
      SameId (member ms "model_id") (member ms' "model_id") →
      SameId (member ms "field_id") (member ms' "field_id") → Variant (.obj ms) (.obj ms')
  | literal {ms ms' : List (String × Json)} : HasType ms "literal" → HasType ms' "literal" →
      member ms "value_type" = member ms' "value_type" → member ms "value" = member ms' "value" →
      Variant (.obj ms) (.obj ms')
  | binary {ms ms' : List (String × Json)} : HasType ms "binary" → HasType ms' "binary" →
      member ms "operator" = member ms' "operator" → Variant (member ms "left") (member ms' "left") →
      Variant (member ms "right") (member ms' "right") → Variant (.obj ms) (.obj ms')
  | unary {ms ms' : List (String × Json)} : HasType ms "unary" → HasType ms' "unary" →
      member ms "operator" = member ms' "operator" → Variant (member ms "argument") (member ms' "argument") →
      Variant (.obj ms) (.obj ms')
  | call {ms ms' : List (String × Json)} {items items' : List Json} : HasType ms "function" →
      HasType ms' "function" → SameName (member ms "name") (member ms' "name") →
      argItems? (member ms "args") = some items → argItems? (member ms' "args") = some items' →
      (hlength : items.length = items'.length) →
      (heach : ∀ (i : ℕ) (h : i < items.length) (h' : i < items'.length), Variant items[i] items'[i]) →
      Variant (.obj ms) (.obj ms')

section

variable {ms ms' : List (String × Json)} {key : String}

theorem SameId.trimmedMember_eq (h : SameId (member ms key) (member ms' key)) :
    trimmedMember ms key = trimmedMember ms' key := by
  rw [Expr.trimmedMember_eq, Expr.trimmedMember_eq]
  generalize member ms key = j, member ms' key = j' at h
  cases h with
  | same _ => rfl
  | padded hs hs' =>
    dsimp only
    rw [Text.trim_of_pads hs, Text.trim_of_pads hs']

theorem SameName.lower_eq (h : SameName (member ms key) (member ms' key)) :
    Text.lower (trimmedMember ms key) = Text.lower (trimmedMember ms' key) := by
  rw [Expr.trimmedMember_eq, Expr.trimmedMember_eq]
  generalize member ms key = j, member ms' key = j' at h
  cases h with
  | same _ => rfl
  | written hcore hcore' hlower hs hs' =>
    dsimp only
    rw [Text.trim_of_pads hs, Text.trim_of_pads hs', Text.trim_of_bounded hcore, Text.trim_of_bounded hcore', hlower]

end

/-- A reader makes the same of a variant: the same tree, or the same fault. -/
theorem Variant.ofJson_eq {j j' : Json} (h : Variant j j') : ofJson j = ofJson j' := by
  induction h with
  | same _ => rfl
  | column htype htype' hmodel hfield =>
    rw [ofJson_column htype, ofJson_column htype', hmodel.trimmedMember_eq, hfield.trimmedMember_eq]
  | literal htype htype' hkind hvalue => rw [ofJson_literal htype, ofJson_literal htype', hkind, hvalue]
  | binary htype htype' hop _ _ ihLeft ihRight =>
    rw [ofJson_binary htype, ofJson_binary htype', hop, ihLeft, ihRight]
  | unary htype htype' hop _ ih => rw [ofJson_unary htype, ofJson_unary htype', hop, ih]
  | @call ms ms' items items' htype htype' hname hitems hitems' hlength _ ih =>
    have hread : items.map ofJson = items'.map ofJson :=
      List.ext_getElem (by simpa using hlength) fun i hi hi' => by
        rw [List.getElem_map, List.getElem_map]
        exact ih i (by simpa using hi) (by simpa using hi')
    have hargs : items.mapM ofJson = items'.mapM ofJson := by
      have hmapped := congrArg (List.mapM id) hread
      rwa [List.mapM_map, List.mapM_map] at hmapped
    rw [ofJson_call htype, ofJson_call htype', hname.lower_eq, hitems, hitems']
    cases Function.ofName? _ with
    | none => rfl
    | some function =>
      dsimp only
      rw [hargs]

/-! ## The record of a tree -/

theorem sameId_of_names {ms : List (String × Json)} {key id : String} (h : Names ms key id) :
    SameId (member ms key) (.str id) := by
  obtain ⟨-, s, hs, rfl⟩ := h
  rw [hs]
  exact .padded (Text.pads_trim s) (Text.pads_self _)

theorem sameName_of_calls {ms : List (String × Json)} {function : Function} (h : Calls ms function) :
    SameName (member ms "name") (.str function.name) := by
  obtain ⟨s, hs, hname⟩ := h
  rw [hs]
  have hlower : Text.lower function.name = function.name := by cases function <;> decide
  have hbounded : Text.Bounded function.name := by
    cases function <;> exact Text.bounded_of_solid (by decide)
  exact .written (Text.bounded_trim s) hbounded (hname.trans hlower.symm) (Text.pads_trim s) (Text.pads_self _)

mutual

/-- Whatever depicts a tree differs from the record of the tree only in what makes no difference. -/
theorem Depicts.variant : (e : Expr) → {j : Json} → Depicts j e → Variant j e.toJson
  | .column _, _, h => by
    cases h with
    | column htype hmodel hfield => exact .column htype rfl (sameId_of_names hmodel) (sameId_of_names hfield)
  | .literal _, _, h => by
    cases h with
    | literal htype hkind hvalue _ => exact .literal htype rfl hkind hvalue
  | .binary _ left right, _, h => by
    cases h with
    | binary htype hop hl hr => exact .binary htype rfl hop (Depicts.variant left hl) (Depicts.variant right hr)
  | .unary _ operand, _, h => by
    cases h with
    | unary htype hop he => exact .unary htype rfl hop (Depicts.variant operand he)
  | .call _ args, _, h => by
    cases h with
    | call htype hcalls hitems hargs =>
      obtain ⟨hlength, heach⟩ := variants_of_depicts args hargs
      exact .call htype rfl (sameName_of_calls hcalls) hitems rfl hlength heach

theorem variants_of_depicts : (args : List Expr) → {items : List Json} → List.Forall₂ Depicts items args →
    ∃ _ : items.length = (argsToJson args).length,
      ∀ (i : ℕ) (h : i < items.length) (h' : i < (argsToJson args).length), Variant items[i] (argsToJson args)[i]
  | [], _, .nil => ⟨rfl, fun _ h => nomatch h⟩
  | e :: rest, _, .cons hfirst hrest => by
    obtain ⟨hlength, heach⟩ := variants_of_depicts rest hrest
    refine ⟨congrArg (· + 1) hlength, fun i h h' => ?_⟩
    cases i with
    | zero => exact Depicts.variant e hfirst
    | succ i => exact heach i (Nat.lt_of_succ_lt_succ h) (Nat.lt_of_succ_lt_succ h')

end

/-! ## Records of different trees -/

mutual

theorem keyed_toJson : (e : Expr) → e.toJson.Keyed
  | .column _ => .obj (by simp) (by simp [Json.Keyed.str])
  | .literal l => .obj (by simp) (by simp [Json.Keyed.str, Literal.keyed_toJson l])
  | .binary _ left right => .obj (by simp) (by simp [Json.Keyed.str, keyed_toJson left, keyed_toJson right])
  | .unary _ operand => .obj (by simp) (by simp [Json.Keyed.str, keyed_toJson operand])
  | .call _ args => .obj (by simp) (by simp [Json.Keyed.str, Json.Keyed.arr (keyed_argsToJson args)])

theorem keyed_argsToJson : (args : List Expr) → ∀ j ∈ argsToJson args, j.Keyed
  | [] => List.forall_mem_nil _
  | e :: rest => List.forall_mem_cons.mpr ⟨keyed_toJson e, keyed_argsToJson rest⟩

end

section

variable {ms ms' : List (String × Json)}

theorem equal_member (h : (Json.obj ms).Equal (.obj ms')) (key : String) {v v' : Json}
    (hv : Json.lookup ms key = some v) (hv' : Json.lookup ms' key = some v') : v.Equal v' := by
  cases h with
  | obj _ heach => exact heach key v v' hv hv'

end

theorem text_eq_of_equal {s s' : String} (h : (Json.str s).Equal (.str s')) : s = s' := by
  cases h
  rfl

theorem nodeType_eq_of_equal {e e' : Expr} (h : e.toJson.Equal e'.toJson) : e.nodeType = e'.nodeType := by
  have htype : ∀ e : Expr, ∃ ms, e.toJson = .obj ms ∧ Json.lookup ms "type" = some (.str e.nodeType) := fun e => by
    cases e <;> exact ⟨_, rfl, rfl⟩
  obtain ⟨ms, hms, hfound⟩ := htype e
  obtain ⟨ms', hms', hfound'⟩ := htype e'
  rw [hms, hms'] at h
  exact text_eq_of_equal (equal_member h _ hfound hfound')

theorem literal_eq_of_equal {l l' : Literal} (h : l.toJson.Equal l'.toJson) : l = l' := by
  cases l <;> cases l' <;> dsimp only [Literal.toJson] at h <;> cases h <;> rfl

mutual

/-- Records that are equal as JSON are those of one tree. -/
theorem eq_of_equal_toJson : (e e' : Expr) → e.toJson.Equal e'.toJson → e = e'
  | .column ⟨_, _⟩, e', h => by
    cases e' with
    | column _ =>
      obtain rfl := text_eq_of_equal (equal_member h "model_id" rfl rfl)
      obtain rfl := text_eq_of_equal (equal_member h "field_id" rfl rfl)
      rfl
    | _ => exact absurd (nodeType_eq_of_equal h) (by simp [nodeType])
  | .literal _, e', h => by
    cases e' with
    | literal _ => rw [literal_eq_of_equal (equal_member h "value" rfl rfl)]
    | _ => exact absurd (nodeType_eq_of_equal h) (by simp [nodeType])
  | .binary op left right, e', h => by
    cases e' with
    | binary op' left' right' =>
      have hop := text_eq_of_equal (equal_member h "operator" rfl rfl)
      rw [Operator.eq_of_symbol hop, eq_of_equal_toJson left left' (equal_member h "left" rfl rfl),
        eq_of_equal_toJson right right' (equal_member h "right" rfl rfl)]
    | _ => exact absurd (nodeType_eq_of_equal h) (by simp [nodeType])
  | .unary sign operand, e', h => by
    cases e' with
    | unary sign' operand' =>
      have hsign := text_eq_of_equal (equal_member h "operator" rfl rfl)
      rw [Sign.eq_of_symbol hsign,
        eq_of_equal_toJson operand operand' (equal_member h "argument" rfl rfl)]
    | _ => exact absurd (nodeType_eq_of_equal h) (by simp [nodeType])
  | .call function args, e', h => by
    cases e' with
    | call function' args' =>
      have hname := text_eq_of_equal (equal_member h "name" rfl rfl)
      have hargs := equal_member h "args" rfl rfl
      cases hargs with
      | arr hlength heach => rw [Function.eq_of_name hname, eq_of_equal_args args args' hlength heach]
    | _ => exact absurd (nodeType_eq_of_equal h) (by simp [nodeType])

theorem eq_of_equal_args : (args args' : List Expr) → (argsToJson args).length = (argsToJson args').length →
    (∀ (i : ℕ) (h : i < (argsToJson args).length) (h' : i < (argsToJson args').length),
      (argsToJson args)[i].Equal (argsToJson args')[i]) → args = args'
  | [], [], _, _ => rfl
  | [], _ :: _, hlength, _ => nomatch hlength
  | _ :: _, [], hlength, _ => nomatch hlength
  | e :: rest, e' :: rest', hlength, heach => by
    rw [eq_of_equal_toJson e e' (heach 0 (Nat.succ_pos _) (Nat.succ_pos _)),
      eq_of_equal_args rest rest' (Nat.succ.inj hlength) fun i h h' =>
        heach (i + 1) (Nat.succ_lt_succ h) (Nat.succ_lt_succ h')]

end

/-! ## Canonical records -/

/-- A value that is read as a tree is a variant of the record of the tree, and this record is read as the
tree again and so written as it was.  Variants are read alike, and no two trees have one record. -/
theorem record_canonical :
    (∀ j e, ofJson j = .ok e → Variant j e.toJson ∧ ofJson e.toJson = .ok e ∧
      (ofJson e.toJson).map toJson = .ok e.toJson) ∧
    (∀ j j', Variant j j' → ofJson j = ofJson j') ∧
    ∀ e e' : Expr, e.toJson.Equal e'.toJson ↔ e = e' := by
  refine ⟨fun j e h => ?_, fun _ _ => Variant.ofJson_eq, fun e e' => ⟨eq_of_equal_toJson e e', ?_⟩⟩
  · have hvariant := Depicts.variant e ((ofJson_eq_ok_iff e).mp h).1
    have hread : ofJson e.toJson = .ok e := hvariant.ofJson_eq.symm.trans h
    exact ⟨hvariant, hread, by rw [hread]; rfl⟩
  · rintro rfl
    exact (keyed_toJson e).equal_self

/-- A call of a function whose name is padded and in capitals, without arguments and with a member that no
reader asks for. -/
theorem record_canonical_call :
    let written : Json := .obj [("type", .str "function"), ("name", .str " ABS "), ("note", .int 1)]
    let other : Json := .obj [("args", .null), ("name", .str "Abs"), ("type", .str "function")]
    ofJson other = .ok (.call .abs []) ∧ Variant written (call .abs []).toJson ∧
      ofJson (call .abs []).toJson = .ok (.call .abs []) ∧
      ¬(literal (.int 1)).toJson.Equal (literal (.truth true)).toJson := by
  intro written other
  have hread : ofJson written = .ok (.call .abs []) := rfl
  have hpads : Text.Pads "ABS" " ABS " := ⟨[' '], [' '], List.all_eq_true.mp rfl, rfl⟩
  have hvariant : Variant written other :=
    .call rfl rfl
      (.written (Text.bounded_of_solid (by decide)) (Text.bounded_of_solid (by decide)) (by decide) hpads
        (Text.pads_self "Abs"))
      rfl rfl rfl fun _ h => nomatch h
  obtain ⟨hcanonical, hvariants, hrecords⟩ := record_canonical
  obtain ⟨hrecord, hagain, -⟩ := hcanonical written _ hread
  exact ⟨(hvariants written other hvariant).symm.trans hread, hrecord, hagain,
    fun h => nomatch (hrecords _ _).mp h⟩

end Expr

end AdhocReport
