import AdhocReport.DerivedField.Analysis
import AdhocReport.Proofs.Expression.ReadBack
set_option autoImplicit false

/-!
# Derived fields: a text and its supplied tree

A client may send the tree of an expression beside its text, and the tree is then analyzed in place
of the text.  For the tree of the text itself this is the same analysis, unless the tree holds a
number that its record cannot carry.
-/

namespace AdhocReport.DerivedField

open AdhocReport.Expr

/-- A supplied tree is analyzed as it is normalized. -/
theorem treeOf_supplied (expression : String) (j : Json) :
    treeOf expression (some j) = match normalize j with
      | .ok (some n) => .ok n.tree
      | .ok none => .error (.http 400 (.str "Derived field expression AST is invalid"))
      | .error fault => .error (.record fault) := by
  simp only [treeOf, normalize]
  cases ofJson j with
  | ok tree => rfl
  | error fault =>
    dsimp only
    split <;> rfl

theorem analyze_of_treeOf {registry : Schema.Registry} {expression : String} {supplied : Option Json}
    {failure : Failure} (h : treeOf expression supplied = .error failure) :
    analyze registry expression supplied = .error failure := by
  simp only [analyze, h]
  rfl

/-- A text and a record of one tree have one analysis, whatever text comes with the record. -/
theorem analyze_parsed {text : String} {e : Expr} (h : parse (some text) = .ok e) (registry : Schema.Registry)
    {other : String} {j : Json} (hj : ofJson j = .ok e) :
    analyze registry other (some j) = analyze registry text none := by
  simp only [analyze, treeOf, h, hj]

/-- The text of a tree never fails as the refused record of the tree does. -/
theorem analyze_text_ne {text : String} {e : Expr} (h : parse (some text) = .ok e) (registry : Schema.Registry)
    (fault : RecordFault) :
    analyze registry text none ≠
      .error (if fault.isMalformed then .http 400 (.str "Derived field expression AST is invalid")
        else .record fault) := by
  simp only [analyze, treeOf, h, Outcome.bind_ok]
  split
  · exact fun hok => nomatch hok
  · split
    · intro herror
      cases herror
    · intro herror
      cases herror

/-- What is made of the record of a tree that holds a refused number. -/
theorem refused_record {e : Expr} (htrimmed : e.Trimmed) {fault : RecordFault} (h : e.fault? = some fault) :
    ofJson e.toJson = .error fault ∧
      normalize e.toJson = (if fault.isMalformed then .ok none else .error fault) ∧
      ∀ (registry : Schema.Registry) (other : String), analyze registry other (some e.toJson) =
        .error (if fault.isMalformed then .http 400 (.str "Derived field expression AST is invalid")
          else .record fault) := by
  have hread : ofJson e.toJson = .error fault := by
    rw [ofJson_toJson htrimmed, unlessRefused, ← fault?, h]
  have hnormalize : normalize e.toJson = (if fault.isMalformed then .ok none else .error fault) := by
    simp only [normalize, hread]
  refine ⟨hread, hnormalize, fun registry other => analyze_of_treeOf ?_⟩
  rw [treeOf_supplied, hnormalize]
  cases fault.isMalformed <;> rfl

/-- For a text that parses: the record of its tree is accepted with the same tree and the same
references, and analyzed as the text is, each exactly when every number of the tree is one that a
record carries; otherwise all three fail with the fault of the first number that is not. -/
theorem record_of_parsed {text : String} {e : Expr} (h : parse (some text) = .ok e) :
    (ofJson e.toJson = .ok e ↔ ∀ l ∈ e.literals, l.fault? = none) ∧
      (normalize e.toJson = .ok (some ⟨e, e.models, e.fieldsByModel, Join.inferredPairs e.models⟩) ↔
        ∀ l ∈ e.literals, l.fault? = none) ∧
      (∀ (registry : Schema.Registry) (other : String),
        analyze registry other (some e.toJson) = analyze registry text none ↔
          ∀ l ∈ e.literals, l.fault? = none) ∧
      ∀ fault, e.fault? = some fault →
        ofJson e.toJson = .error fault ∧
        normalize e.toJson = (if fault.isMalformed then .ok none else .error fault) ∧
        ∀ (registry : Schema.Registry) (other : String), analyze registry other (some e.toJson) =
          .error (if fault.isMalformed then .http 400 (.str "Derived field expression AST is invalid")
            else .record fault) := by
  have htrimmed := trimmed_of_parse h
  rw [← fault?_eq_none_iff]
  refine ⟨ofJson_toJson_eq_ok_iff htrimmed, ?_, fun registry other => ?_, fun fault => refused_record htrimmed⟩
  · cases hfault : e.fault? with
    | none => simp [normalize, (ofJson_toJson_eq_ok_iff htrimmed).mpr hfault]
    | some fault =>
      rw [(refused_record htrimmed hfault).2.1]
      split <;> simp
  · cases hfault : e.fault? with
    | none =>
      have hread := (ofJson_toJson_eq_ok_iff htrimmed).mpr hfault
      simp [analyze_parsed h registry hread]
    | some fault =>
      rw [(refused_record htrimmed hfault).2.2]
      simp [(analyze_text_ne h registry fault).symm]

/-- The numbers of `a.b*2` are carried by its record. -/
theorem record_of_parsed_product :
    ∃ e, parse (some "a.b*2") = .ok e ∧ ofJson e.toJson = .ok e ∧
      ∀ (registry : Schema.Registry) (other : String),
        analyze registry other (some e.toJson) = analyze registry "a.b*2" none := by
  have hscan : Token.scan "a.b*2" = .ok [⟨.reference, ['a', '.', 'b'], 0⟩, ⟨.operator, ['*'], 3⟩,
      ⟨.number, ['2'], 4⟩, ⟨.ending, [], 5⟩] := rfl
  have hparse : parse (some "a.b*2") = .ok (.binary .mul
      (.column (Token.fieldRef ⟨.reference, ['a', '.', 'b'], 0⟩))
      (.literal (.int 2))) :=
    (parse_eq_ok_iff hscan).mpr (.term (.product (.factor (.primary (.reference rfl))) (.inl rfl) ⟨rfl, rfl⟩
      (.primary (.number rfl))))
  have htwo : (Decimal.ofInt 2).isInf = false := by decide +kernel
  have hcarried : ∀ l ∈ [Literal.int 2], l.fault? = none := by
    rw [List.forall_mem_singleton, Literal.fault?, htwo]
    rfl
  obtain ⟨hread, -, hanalyze, -⟩ := record_of_parsed hparse
  exact ⟨_, hparse, hread.mpr hcarried, fun registry other => (hanalyze registry other).mpr hcarried⟩

/-- The number of `1e400` is infinite: its text is accepted, and the record of its tree is not. -/
theorem infinite_not_read_back :
    ∃ e, parse (some "1e400") = .ok e ∧ ofJson e.toJson = .error .infinite ∧ normalize e.toJson = .ok none ∧
      analyze ⟨[]⟩ "1e400" none = .ok (.ofTree e) ∧
      analyze ⟨[]⟩ "1e400" (some e.toJson) =
        .error (.http 400 (.str "Derived field expression AST is invalid")) := by
  have hscan : Token.scan "1e400" = .ok [⟨.number, ['1', 'e', '4', '0', '0'], 0⟩, ⟨.ending, [], 5⟩] := rfl
  have hparse : parse (some "1e400") =
      .ok (.literal (.float (Decimal.Numeral.toFloat ⟨['1'], false, [], some (false, ['4', '0', '0'])⟩))) :=
    (parse_eq_ok_iff hscan).mpr (.term (.factor (.primary (.number rfl))))
  have hinfinite : (Decimal.Numeral.toFloat ⟨['1'], false, [], some (false, ['4', '0', '0'])⟩).isInf = true := by
    decide +kernel
  generalize Decimal.Numeral.toFloat ⟨['1'], false, [], some (false, ['4', '0', '0'])⟩ = x at hparse hinfinite
  have hfault : (Expr.literal (.float x)).fault? = some .infinite := by
    simp [fault?, literals, Literal.fault?, hinfinite]
  obtain ⟨hread, hnormalize, hanalyze⟩ := refused_record (trimmed_of_parse hparse) hfault
  refine ⟨_, hparse, hread, hnormalize, ?_, hanalyze _ _⟩
  simp only [analyze, treeOf, hparse]
  rfl

end AdhocReport.DerivedField
