import AdhocReport.Proofs.Filter.Comparison
set_option autoImplicit false

/-!
# Filters: numbers in clauses

A number is written into a clause as it was given, without quotes.  What is accepted is a numeral of a finite
value with nothing around it but blanks, which are dropped.  Its digits may be those of any script, and SQL
knows only those of ASCII: so a clause holds a numeric literal of SQL exactly if no other digits were given.
-/

namespace AdhocReport.Filter

open AdhocReport.Schema
open AdhocReport.Decimal
open Outcome (bind_ok bind_eq_ok)

/-! ## Numerals -/

/-- The text is a numeral of a finite value, and nothing else: an optional sign, digits of any script with an
optional point and at least one of them, and an optional exponent. -/
def IsNumeral (text : String) : Prop :=
  ∃ negative sign cs, ∃ n : Numeral, SignText negative sign ∧ n.Spelled cs ∧ text.toList = sign ++ cs ∧
    n.value < limit

/-- The text is a numeric literal of SQL: a numeral whose digits are those of ASCII. -/
def IsSqlNumeral (text : String) : Prop :=
  ∃ negative sign cs, ∃ n : Numeral, SignText negative sign ∧ n.Spelled cs ∧ text.toList = sign ++ cs ∧
    n.value < limit ∧ ∀ d ∈ n.allDigits, d.isDigit = true

/-- No digit of another script than that of ASCII is in the text. -/
def AsciiDigits (text : String) : Prop := ∀ c ∈ text.toList, Text.isDigit c = true → c.isDigit = true

theorem isSqlNumeral_iff {text : String} : IsSqlNumeral text ↔ IsNumeral text ∧ AsciiDigits text := by
  constructor
  · rintro ⟨negative, sign, cs, n, hsign, hspelled, htext, hfinite, hascii⟩
    refine ⟨⟨negative, sign, cs, n, hsign, hspelled, htext, hfinite⟩, fun c hc hdigit => ?_⟩
    rw [htext] at hc
    exact hascii c ((hspelled.mem_allDigits hsign c).mpr ⟨hc, hdigit⟩)
  · rintro ⟨⟨negative, sign, cs, n, hsign, hspelled, htext, hfinite⟩, hascii⟩
    refine ⟨negative, sign, cs, n, hsign, hspelled, htext, hfinite, fun d hd => ?_⟩
    obtain ⟨hmem, hdigit⟩ := (hspelled.mem_allDigits hsign d).mp hd
    exact hascii d (htext ▸ hmem) hdigit

theorem numeral?_of_spelled {text : String} {negative : Bool} {sign cs : List Char} {n : Numeral}
    (hsign : SignText negative sign) (hspelled : n.Spelled cs) (htext : text.toList = sign ++ cs) :
    numeral? text = some (negative, n) := by
  rw [numeral?, htext, sign?_of_spelled hsign hspelled.head]
  simp only [hspelled.scan?]

/-- What is accepted as a number once it is trimmed is a numeral. -/
theorem isNumber_trim_iff {value : String} :
    isNumber (Text.trim value) = true ↔ IsNumeral (Text.trim value) := by
  rw [isNumber_iff]
  constructor
  · rintro ⟨⟨negative, n⟩, hn, hfinite⟩
    obtain ⟨sign, cs, hsign, hspelled, htext⟩ := numeral?_trim_spelled hn
    exact ⟨negative, sign, cs, n, hsign, hspelled, htext, hfinite⟩
  · rintro ⟨negative, sign, cs, n, hsign, hspelled, htext, hfinite⟩
    exact ⟨(negative, n), numeral?_of_spelled hsign hspelled htext, hfinite⟩

/-! ## Comparisons with a number -/

theorem number_of_valueOf {o : Operator} {kind : ValueKind} {given : Option String} {text : String}
    (h : valueOf o kind given = .ok (.number text)) :
    ∃ value, given = some value ∧ kind = .number ∧ Text.trim value = text := by
  cases given with
  | none => cases h
  | some value =>
    cases kind with
    | number =>
      rw [valueOf_number] at h
      split at h <;> cases h
      exact ⟨value, rfl, rfl, rfl⟩
    | boolean =>
      simp only [valueOf] at h
      split at h
      · cases h
      · split at h <;> cases h
    | date =>
      simp only [valueOf] at h
      split at h <;> cases h
    | string =>
      simp only [valueOf] at h
      split at h <;> cases h

section

variable {aliases : List (String × String)} {registry : Registry}

/-- The filter compares a column with a number, by an operator that the column allows. -/
structure ComparesNumber (f : Spec) (aliases : List (String × String)) (registry : Registry)
    (left : ClauseColumn) (c : Comparator) (value : String) : Prop where
  operator : f.operator = .compare c
  rightKind : f.rightKind = .value
  valueKind : f.valueKind = .number
  value : f.value = some value
  column : columnOf f.left aliases registry = .ok left
  allowed : (operatorsFor left.type).contains f.operator = true

theorem ComparesNumber.predicateOf_eq {f : Spec} {left : ClauseColumn} {c : Comparator} {value : String}
    (h : ComparesNumber f aliases registry left c value) :
    predicateOf f aliases registry =
      if isNumber (Text.trim value) then .ok (.compareValue left c (.number (Text.trim value)))
      else .error (.notNumber value) := by
  have hallowed := h.allowed
  rw [h.operator] at hallowed
  have hvalue : valueOf f.operator f.valueKind f.value = if isNumber (Text.trim value) then
      .ok (.number (Text.trim value)) else .error (.notNumber value) := by
    rw [h.valueKind, h.value, valueOf_number]
  rw [h.operator] at hvalue
  simp only [predicateOf, h.column, bind_ok, h.operator, h.rightKind, hallowed, hvalue, Bool.not_true,
    Bool.false_eq_true, if_false]
  generalize Text.trim value = text
  cases isNumber text <;> rfl

theorem comparesNumber_of_predicateOf {f : Spec} {left : ClauseColumn} {c : Comparator} {text : String}
    (h : predicateOf f aliases registry = .ok (.compareValue left c (.number text))) :
    ∃ value, ComparesNumber f aliases registry left c value ∧ Text.trim value = text := by
  obtain ⟨column, hcolumn, h⟩ := bind_eq_ok.mp h
  split at h
  · cases h
  · rename_i hallowed
    rw [Bool.not_eq_true', Bool.not_eq_false] at hallowed
    split at h
    · cases h
    · split at h
      · cases h
      · cases h
      · split at h <;> cases h
    · rename_i other hoperator
      split at h
      · split at h
        · cases h
        · obtain ⟨right, -, h⟩ := bind_eq_ok.mp h
          cases h
      · rename_i hkind
        obtain ⟨v, hv, h⟩ := bind_eq_ok.mp h
        cases h
        obtain ⟨value, hvalue, hvalueKind, htext⟩ := number_of_valueOf hv
        exact ⟨value, ⟨hoperator, hkind, hvalueKind, hvalue, hcolumn, hallowed⟩, htext⟩

end

theorem predicates_compileFrom (position : ℕ) (filters : List Spec) (aliases : List (String × String))
    (registry : Registry) :
    (compileFrom aliases registry position filters).predicates =
      filters.filterMap fun f => (predicateOf f aliases registry).toOption := by
  induction filters generalizing position with
  | nil => rfl
  | cons f filters ih =>
    rw [compileFrom, List.filterMap_cons, ← ih (position + 1)]
    cases predicateOf f aliases registry <;> rfl

/-- The clauses of a compilation are those of the filters that are valid. -/
theorem mem_predicates {filters : List Spec} {aliases : List (String × String)} {registry : Registry}
    {p : Predicate} :
    p ∈ (compile filters aliases registry).predicates ↔
      ∃ f ∈ filters, predicateOf f aliases registry = .ok p := by
  rw [compile, predicates_compileFrom, List.mem_filterMap]
  refine exists_congr fun f => and_congr_right fun _ => ?_
  cases predicateOf f aliases registry <;> simp [Except.toOption]

/-! ## Literals of clauses -/

/-- The numbers in the clauses of filters are the values of the filters that compare with a number, trimmed, as
far as these are numerals; each is written as it stands, behind the column and the operator.  It is a numeric
literal of SQL exactly if its digits are those of ASCII. -/
theorem number_literals (filters : List Spec) (aliases : List (String × String)) (registry : Registry)
    (left : ClauseColumn) (c : Comparator) (text : String) :
    (.compareValue left c (.number text) ∈ (compile filters aliases registry).predicates ↔
      ∃ f ∈ filters, ∃ value, ComparesNumber f aliases registry left c value ∧ Text.trim value = text ∧
        IsNumeral text) ∧
    (∀ postgres, (Predicate.compareValue left c (.number text)).clause postgres =
      left.text ++ " " ++ c.symbol ++ " " ++ text) ∧
    (IsSqlNumeral text ↔ IsNumeral text ∧ AsciiDigits text) := by
  refine ⟨?_, fun _ => rfl, isSqlNumeral_iff⟩
  rw [mem_predicates]
  refine exists_congr fun f => and_congr_right fun _ => ⟨fun h => ?_, ?_⟩
  · obtain ⟨value, hcompares, rfl⟩ := comparesNumber_of_predicateOf h
    rw [hcompares.predicateOf_eq] at h
    refine ⟨value, hcompares, rfl, ?_⟩
    by_contra hnot
    rw [if_neg (mt isNumber_trim_iff.mp hnot)] at h
    cases h
  · rintro ⟨value, hcompares, rfl, hnumeral⟩
    rw [hcompares.predicateOf_eq, if_pos (isNumber_trim_iff.mpr hnumeral)]

/-- An Arabic three is accepted as a number and stands in the clause, where SQL knows no such literal. -/
theorem foreign_digit_inlined :
    let registry : Registry :=
      ⟨[⟨"orders", "orders", "orders", [⟨"total", "Total", .number, some "total", false, true, "INTEGER"⟩], [], ""⟩]⟩
    let filter : Spec := ⟨none, ⟨"orders", "total"⟩, .compare .eq, .value, some "\u0663", none, .number⟩
    (compile [filter] [("orders", "orders")] registry).clauses true = ["\"orders\".\"total\" = \u0663"] ∧
      ¬IsSqlNumeral "\u0663" := by
  refine ⟨by decide +kernel, fun h => ?_⟩
  have hdigit := (isSqlNumeral_iff.mp h).2 '\u0663' List.mem_cons_self (by decide)
  revert hdigit
  decide

end AdhocReport.Filter
