import AdhocReport.Filter.Comparison
import AdhocReport.Proofs.Decimal.Reading
import AdhocReport.Proofs.Filter.Clause
set_option autoImplicit false

/-!
# Filters: literal comparisons

A comparison that is kept is that of one of the filters.  Its literal is read from the same text as the value of
a clause, which writes a number as it was given, while a comparison takes the nearest double of it.  So the two
accept the same values, and differ on those whole numbers that are no doubles.
-/

namespace AdhocReport.Filter

open AdhocReport.Decimal

/-! ## Kept comparisons -/

theorem map_snd_numberedFrom {α : Type} (n : Nat) (xs : List α) : (numberedFrom n xs).map (·.2) = xs := by
  induction xs generalizing n with
  | nil => rfl
  | cons x xs ih => rw [numberedFrom, List.map_cons, ih]

theorem filters_reduceNumbered (ps : List (Nat × Spec)) :
    (reduceNumbered ps).filters = ps.filterMap fun p => (comparisonOf p.2).toOption := by
  induction ps with
  | nil => rfl
  | cons p ps ih =>
    obtain ⟨position, f⟩ := p
    rw [reduceNumbered, List.filterMap_cons, ← ih]
    cases comparisonOf f <;> rfl

/-- What is kept are the comparisons of the filters, in their order. -/
theorem filters_reduce (filters : List Spec) :
    (reduce filters).filters = filters.filterMap fun f => (comparisonOf f).toOption := by
  calc (reduce filters).filters
      = ((numberedFrom 1 filters).map (·.2)).filterMap fun f => (comparisonOf f).toOption := by
        rw [reduce, filters_reduceNumbered, List.filterMap_map]
        rfl
    _ = filters.filterMap fun f => (comparisonOf f).toOption := by rw [map_snd_numberedFrom]

theorem mem_of_reduce {filters : List Spec} {c : Comparison} (h : c ∈ (reduce filters).filters) :
    ∃ f ∈ filters, comparisonOf f = .ok c := by
  rw [filters_reduce] at h
  obtain ⟨f, hf, hread⟩ := List.mem_filterMap.mp h
  refine ⟨f, hf, ?_⟩
  cases hcomparison : comparisonOf f with
  | ok kept =>
    rw [hcomparison] at hread
    exact congrArg Except.ok (Option.some.inj hread)
  | error reason =>
    rw [hcomparison] at hread
    cases hread

theorem left_of_comparisonOf {f : Spec} {c : Comparison} (h : comparisonOf f = .ok c) : c.left = f.left := by
  unfold comparisonOf at h
  split at h
  · cases h
  · split at h
    · cases h
    · split at h
      · cases h
        rfl
      · cases h

/-! ## Numbers -/

/-- The number that a signed numeral writes. -/
def writtenNumber (n : Bool × Numeral) : ℚ := withSign (signIf n.1) n.2.value

/-- A signed numeral is read as its correctly rounded number. -/
theorem rounded_numeralFloat (n : Bool × Numeral) : Rounded (signIf n.1) n.2.value (numeralFloat n) := by
  obtain ⟨negative, n⟩ := n
  have hrounded := n.rounded_toFloat
  cases negative with
  | true => exact hrounded.neg
  | false => exact hrounded

theorem nearest_numeralFloat {n : Bool × Numeral} (h : n.2.value < limit) :
    Nearest (writtenNumber n) (numeralFloat n) := by
  have hnonneg : 0 ≤ n.2.value := mul_nonneg (Nat.cast_nonneg _) (by positivity)
  exact (rounded_numeralFloat n).nearest hnonneg h

/-- A numeral is refused when its number reaches the limit of the doubles. -/
theorem refused_iff (n : Bool × Numeral) :
    ((numeralFloat n).isNaN || (numeralFloat n).isInf) = true ↔ limit ≤ n.2.value := by
  have hrounded := rounded_numeralFloat n
  rw [hrounded.isNaN, Bool.false_or]
  exact hrounded.isInf

theorem isNumber_iff {text : String} : isNumber text = true ↔ ∃ n, numeral? text = some n ∧ n.2.value < limit := by
  unfold isNumber
  cases hn : numeral? text with
  | none =>
    refine ⟨fun h => Bool.noConfusion h, ?_⟩
    rintro ⟨n, hnone, -⟩
    cases hnone
  | some n =>
    have hrefused := (refused_iff n).not
    rw [Bool.not_eq_true, ← Bool.not_eq_true', not_le] at hrefused
    refine hrefused.trans ⟨fun hlimit => ⟨n, rfl, hlimit⟩, ?_⟩
    rintro ⟨n', hn', hlimit⟩
    cases hn'
    exact hlimit

/-- A numeral without point and exponent writes the integer of its digits. -/
theorem value_of_isWhole {text : String} {n : Bool × Numeral} (h : numeral? text = some n)
    (hwhole : n.2.isWhole = true) : n.2.value = Text.digitsValue n.2.whole := by
  obtain ⟨negative, n⟩ := n
  obtain ⟨-, cs, -, hspelled, -⟩ := numeral?_spelled h
  simp only [Numeral.isWhole, Bool.and_eq_true, Bool.not_eq_true', Option.isNone_iff_eq_none] at hwhole
  simp [Numeral.value, Numeral.power, hwhole.2, hspelled.point hwhole.1]

/-- The nearest double of a numeral without point and exponent is an integer, and its integer part is all of it. -/
theorem truncate_numeralFloat {text : String} {n : Bool × Numeral} (h : numeral? text = some n)
    (hwhole : n.2.isWhole = true) (hlimit : n.2.value < limit) :
    (truncate (numeralFloat n) : ℚ) = toRat (numeralFloat n) := by
  have hwithin := (rounded_numeralFloat n).within hlimit
  rw [value_of_isWhole h hwhole] at hwithin
  obtain ⟨k, hk⟩ := Binary.exists_nat_of_within (magnitudeOf_regular _) hwithin
  exact truncate_of_nat hk

theorem numberOf?_of_lt {value text : String} (htrim : Text.trim value = text) {n : Bool × Numeral}
    (h : numeral? text = some n) (hlimit : n.2.value < limit) :
    numberOf? value =
      some (if n.2.isWhole then .int (truncate (numeralFloat n)) else .float (numeralFloat n)) := by
  have hfinite : ¬ ((numeralFloat n).isNaN || (numeralFloat n).isInf) = true := by
    rw [refused_iff]
    exact hlimit.not_ge
  -- Unfolding by equations would evaluate the trimming.
  delta numberOf?
  simp only [htrim, h, if_neg hfinite]
  exact (apply_ite some _ _ _).symm

theorem numberOf?_eq_none {value text : String} (htrim : Text.trim value = text) (h : isNumber text = false) :
    numberOf? value = none := by
  rw [Bool.eq_false_iff, ne_eq, isNumber_iff] at h
  delta numberOf?
  cases hn : numeral? text with
  | none => simp only [htrim, hn]
  | some n =>
    have hlimit : limit ≤ n.2.value := le_of_not_gt fun hlt => h ⟨n, hn, hlt⟩
    simp only [htrim, hn, if_pos ((refused_iff n).mpr hlimit)]

/-! ## Literals -/

/-- The literal is what a clause writes: the same truth value or text, the integer of a numeral without point and
exponent, and the nearest double of another numeral. -/
inductive ClauseValue.Denotes : ClauseValue → Literal → Prop
  | truth (b : Bool) : Denotes (.truth b) (.truth b)
  | text (s : String) : Denotes (.text s) (.text s)
  | whole {numeral : String} {n : Bool × Numeral} {k : ℤ} : numeral? numeral = some n → n.2.isWhole = true →
      (k : ℚ) = writtenNumber n → Denotes (.number numeral) (.int k)
  | other {numeral : String} {n : Bool × Numeral} {x : Float} : numeral? numeral = some n → n.2.isWhole = false →
      signOf x = signIf n.1 → Nearest (writtenNumber n) x → Denotes (.number numeral) (.float x)

/-- The value is a numeral without point and exponent, of this number. -/
def ClauseValue.Whole (v : ClauseValue) (k : ℚ) : Prop :=
  ∃ numeral n, v = .number numeral ∧ numeral? numeral = some n ∧ n.2.isWhole = true ∧ k = writtenNumber n

/-- What a comparison takes for an accepted value. -/
structure ClauseValue.Taken (v : ClauseValue) (l : Literal) : Prop where
  /-- A whole number becomes the integer of its nearest double. -/
  whole : ∀ k, v.Whole k → ∃ x i, Nearest k x ∧ toRat x = (i : ℤ) ∧ l = .int i
  /-- The literal is what the clause writes, except for a whole number that is no double. -/
  denotes : v.Denotes l ↔ ∀ k, v.Whole k → ∃ x, IsFinite x ∧ toRat x = k

theorem taken_of_not_whole {v : ClauseValue} {l : Literal} (hnot : ∀ k, ¬ v.Whole k) (h : v.Denotes l) :
    v.Taken l :=
  ⟨fun k hk => absurd hk (hnot k), fun _ k hk => absurd hk (hnot k), fun _ => h⟩

theorem taken_truth (b : Bool) : (ClauseValue.truth b).Taken (.truth b) := by
  refine taken_of_not_whole ?_ (.truth b)
  rintro k ⟨numeral, n, hvalue, -⟩
  cases hvalue

theorem taken_text (s : String) : (ClauseValue.text s).Taken (.text s) := by
  refine taken_of_not_whole ?_ (.text s)
  rintro k ⟨numeral, n, hvalue, -⟩
  cases hvalue

theorem taken_number {text : String} {n : Bool × Numeral} (h : numeral? text = some n)
    (hlimit : n.2.value < limit) :
    (ClauseValue.number text).Taken
      (if n.2.isWhole then .int (truncate (numeralFloat n)) else .float (numeralFloat n)) := by
  have hnearest := nearest_numeralFloat hlimit
  have hunique : ∀ k, (ClauseValue.number text).Whole k → n.2.isWhole = true ∧ k = writtenNumber n := by
    rintro k ⟨numeral, n', hvalue, hn', hwhole, hk⟩
    cases hvalue
    cases h.symm.trans hn'
    exact ⟨hwhole, hk⟩
  cases hwhole : n.2.isWhole with
  | true =>
    have htruncate := truncate_numeralFloat h hwhole hlimit
    have hself : (ClauseValue.number text).Whole (writtenNumber n) := ⟨_, n, rfl, h, hwhole, rfl⟩
    rw [if_pos rfl]
    refine ⟨fun k hk => ?_, fun hdenotes k hk => ?_, fun hexact => ?_⟩
    · rw [(hunique k hk).2]
      exact ⟨_, _, hnearest, htruncate.symm, rfl⟩
    · cases hdenotes with
      | whole hn' _ hvalue =>
        cases h.symm.trans hn'
        rw [(hunique k hk).2]
        exact ⟨_, hnearest.isFinite, htruncate.symm.trans hvalue⟩
    · exact .whole h hwhole (htruncate.trans (hnearest.eq_iff.mpr (hexact _ hself)))
  | false =>
    rw [if_neg Bool.false_ne_true]
    refine taken_of_not_whole (fun k hk => ?_) (.other h hwhole (rounded_numeralFloat n).sign hnearest)
    rw [(hunique k hk).1] at hwhole
    cases hwhole

/-- What a clause refuses is no literal, and what it accepts is taken as one. -/
inductive Agree : Except ClauseFault ClauseValue → Option Literal → Prop
  | refused (fault : ClauseFault) : Agree (.error fault) none
  | taken {v : ClauseValue} {l : Literal} : v.Taken l → Agree (.ok v) (some l)

theorem agree_number {value text : String} (htrim : Text.trim value = text) :
    Agree (if isNumber text then .ok (.number text) else .error (.notNumber value)) (numberOf? value) := by
  cases hnumber : isNumber text with
  | true =>
    obtain ⟨n, hn, hlimit⟩ := isNumber_iff.mp hnumber
    rw [if_pos rfl, numberOf?_of_lt htrim hn hlimit]
    exact .taken (taken_number hn hlimit)
  | false =>
    rw [if_neg Bool.false_ne_true, numberOf?_eq_none htrim hnumber]
    exact .refused _

theorem agree_truth (value : String) :
    Agree
      (if value == "true" then .ok (.truth true)
        else if value == "false" then .ok (.truth false) else .error (.notTruth value))
      (if value == "true" then some (.truth true) else if value == "false" then some (.truth false) else none) := by
  split
  · exact .taken (taken_truth true)
  · split
    · exact .taken (taken_truth false)
    · exact .refused _

theorem agree_text (value text : String) :
    Agree (if Text.isBlankText value then .error .emptyValue else .ok (.text text))
      (if Text.isBlankText value then none else some (.text text)) := by
  split
  · exact .refused _
  · exact .taken (taken_text text)

theorem valueOf_number (o : Operator) (value : String) : valueOf o .number (some value) =
    if isNumber (Text.trim value) then .ok (.number (Text.trim value)) else .error (.notNumber value) := rfl

theorem literal?_number (value : String) : literal? .number (some value) = numberOf? value := rfl

/-- The two readings of a value agree. -/
theorem agree (o : Operator) (kind : ValueKind) (value : Option String) :
    Agree (valueOf o kind value) (literal? kind value) := by
  cases value with
  | none => exact .refused _
  | some value =>
    cases kind with
    | number =>
      rw [valueOf_number, literal?_number]
      exact agree_number rfl
    | boolean => exact agree_truth value
    | date => exact agree_text value (Text.trim value)
    | string => exact agree_text value value

section Compared

variable {f : Spec} {c : Comparator} (hop : f.operator = .compare c) (hkind : f.rightKind = .value)

include hop hkind

/-- The predicate of a comparison with a value has the value that is read. -/
theorem valueOf_of_predicateOf {aliases : List (String × String)} {registry : Schema.Registry} {p : Predicate}
    (h : predicateOf f aliases registry = .ok p) :
    ∃ left v, valueOf f.operator f.valueKind f.value = .ok v ∧ p = .compareValue left c v := by
  unfold predicateOf at h
  obtain ⟨left, -, h⟩ := Outcome.bind_eq_ok.mp h
  split at h
  · cases h
  · rw [hop, hkind] at h
    obtain ⟨v, hv, h⟩ := Outcome.bind_eq_ok.mp h
    cases h
    exact ⟨left, v, hop ▸ hv, rfl⟩

theorem comparisonOf_of_none (h : literal? f.valueKind f.value = none) : comparisonOf f = .error .badValue := by
  simp only [comparisonOf, hop, Operator.comparator?, hkind, h]

theorem comparisonOf_of_some {l : Literal} (h : literal? f.valueKind f.value = some l) :
    comparisonOf f = .ok ⟨f.left, c, l⟩ := by
  simp only [comparisonOf, hop, Operator.comparator?, hkind, h]

end Compared

/-- Clauses and comparisons accept the same values, and a comparison takes the literal that the clause writes,
except that a whole number which is no double is replaced by its nearest double. -/
theorem comparisonOf_agrees {f : Spec} {c : Comparator} (hop : f.operator = .compare c)
    (hkind : f.rightKind = .value) :
    (comparisonOf f = .error .badValue ↔ ∃ fault, valueOf f.operator f.valueKind f.value = .error fault) ∧
      (∀ v, valueOf f.operator f.valueKind f.value = .ok v →
        ∃ l, comparisonOf f = .ok ⟨f.left, c, l⟩ ∧ v.Taken l) ∧
      ∀ aliases registry p, predicateOf f aliases registry = .ok p →
        ∃ left v, valueOf f.operator f.valueKind f.value = .ok v ∧ p = .compareValue left c v := by
  have hagree := agree f.operator f.valueKind f.value
  have hpredicate := fun aliases registry p => @valueOf_of_predicateOf f c hop hkind aliases registry p
  have hnone := comparisonOf_of_none hop hkind
  have hsome := @comparisonOf_of_some f c hop hkind
  generalize valueOf f.operator f.valueKind f.value = read at hagree hpredicate ⊢
  generalize literal? f.valueKind f.value = found at hagree hnone hsome
  cases hagree with
  | refused fault =>
    refine ⟨⟨fun _ => ⟨fault, rfl⟩, fun _ => hnone rfl⟩, fun v hv => ?_, hpredicate⟩
    cases hv
  | taken htaken =>
    rw [hsome rfl]
    refine ⟨⟨fun hbad => ?_, ?_⟩, fun v hv => ?_, hpredicate⟩
    · cases hbad
    · rintro ⟨fault, hfault⟩
      cases hfault
    · cases hv
      exact ⟨_, rfl, htaken⟩

/-- A comparison of a number with a value. -/
def comparing (value : String) : Spec :=
  ⟨none, ⟨"orders", "id"⟩, .compare .eq, .value, some value, none, .number⟩

/-- The number `-42` is compared as it is written. -/
theorem comparisonOf_agrees_negative :
    comparisonOf (comparing " -42 ") = .ok ⟨⟨"orders", "id"⟩, .eq, .int (-42)⟩ ∧
      (ClauseValue.number "-42").Denotes (.int (-42)) := by
  have hvalue : valueOf (comparing " -42 ").operator (comparing " -42 ").valueKind (comparing " -42 ").value =
      .ok (.number "-42") := by decide +kernel
  have hcomparison : comparisonOf (comparing " -42 ") = .ok ⟨⟨"orders", "id"⟩, .eq, .int (-42)⟩ := by decide +kernel
  obtain ⟨-, htakes, -⟩ := comparisonOf_agrees (f := comparing " -42 ") rfl rfl
  obtain ⟨l, hl, htaken⟩ := htakes _ hvalue
  cases hcomparison.symm.trans hl
  refine ⟨hcomparison, htaken.denotes.mpr fun k hk => ?_⟩
  obtain ⟨x, i, hnearest, hinteger, hint⟩ := htaken.whole k hk
  cases hint
  obtain ⟨numeral, n, hnumeral, hn, hwhole, rfl⟩ := hk
  cases hnumeral
  have hread : numeral? "-42" = some (true, ⟨['4', '2'], false, [], none⟩) := rfl
  cases hread.symm.trans hn
  have hwritten : writtenNumber (true, ⟨['4', '2'], false, [], none⟩) = -42 := by
    have hdigits : Text.digitsValue ['4', '2'] = 42 := by decide +kernel
    rw [writtenNumber, value_of_isWhole hn rfl, hdigits]
    rfl
  exact ⟨x, hnearest.isFinite, by rw [hinteger, hwritten]; norm_num⟩

/-- A whole number that is no double is compared with another one. -/
theorem whole_number_changed :
    valueOf (comparing "9007199254740993").operator (comparing "9007199254740993").valueKind
        (comparing "9007199254740993").value = .ok (.number "9007199254740993") ∧
      comparisonOf (comparing "9007199254740993") =
        .ok ⟨⟨"orders", "id"⟩, .eq, .int 9007199254740992⟩ ∧
      ¬ (ClauseValue.number "9007199254740993").Denotes (.int 9007199254740992) := by
  refine ⟨by decide +kernel, by decide +kernel, fun hdenotes => ?_⟩
  cases hdenotes with
  | whole hn hwhole hvalue =>
    have hread : numeral? "9007199254740993" = some (false, ⟨"9007199254740993".toList, false, [], none⟩) := rfl
    have hdigits : Text.digitsValue "9007199254740993".toList = 9007199254740993 := by decide +kernel
    cases hread.symm.trans hn
    rw [writtenNumber, value_of_isWhole hread rfl, hdigits] at hvalue
    exact absurd (show (9007199254740992 : ℚ) = 9007199254740993 from hvalue) (by norm_num)

end AdhocReport.Filter
