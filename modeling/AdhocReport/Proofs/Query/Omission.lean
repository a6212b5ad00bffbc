import AdhocReport.Proofs.Query.Assembly
import Mathlib.Algebra.Order.BigOperators.Group.List
set_option autoImplicit false

/-!
# Queries: filters that are left out

Filters go through two passes.  The first one leaves out those on fields that are not selected, and names
them by their positions in the selection; the second one leaves out what is no comparison with a literal, and
counts only the filters that the first one has kept.  So each filter is carried or reported once, but the
number in a report of the second pass is the position of its filter only where no filter before it fell out
in the first.
-/

namespace AdhocReport.Query

open AdhocReport.Schema

/-- Why a filter of a selection is left out of its query. -/
inductive Omission where
  /-- A field of it is not of a selected model, or not known. -/
  | unselected
  /-- It is no comparison with a literal. -/
  | dropped (reason : Filter.DropReason)
  deriving DecidableEq, Repr

/-- A filter that is left out, with its position in the selection. -/
structure Omitted where
  position : Nat
  filter : Filter.Spec
  omission : Omission
  deriving DecidableEq

/-- The comparison that a filter is carried as, or why it is left out. -/
def carried (models : List String) (registry : Registry) (f : Filter.Spec) : Except Omission Filter.Comparison :=
  if isKnownFilter models registry f then (Filter.comparisonOf f).mapError .dropped else .error .unselected

/-- A filter with its position, if it is left out. -/
def omitted? (models : List String) (registry : Registry) (p : Filter.Spec × Nat) : Option Omitted :=
  match carried models registry p.1 with
  | .ok _ => none
  | .error omission => some ⟨p.2, p.1, omission⟩

/-- The filters that are left out, numbered from a position. -/
def omittedFrom (models : List String) (registry : Registry) (position : Nat) (filters : List Filter.Spec) :
    List Omitted :=
  (filters.zipIdx position).filterMap (omitted? models registry)

namespace Omitted

/-- The filter fell out in the first pass. -/
def isUnselected (o : Omitted) : Bool :=
  match o.omission with
  | .unselected => true
  | .dropped _ => false

/-- The warning for a filter that is left out, under a number. -/
def warning (o : Omitted) (number : Nat) : String :=
  match o.omission with
  | .unselected => "Filter " ++ Decimal.natText number ++ " (" ++ o.filter.left.path
      ++ ") was skipped: it references a field that is not selected."
  | .dropped reason => o.filter.label number ++ " was skipped: " ++ reason.message

/-- The number that a filter is reported under: its position, or, in the second pass, its place among the
filters that the first pass has kept. -/
def number (models : List String) (registry : Registry) (filters : List Filter.Spec) (o : Omitted) : Nat :=
  match o.omission with
  | .unselected => o.position
  | .dropped _ => (filters.take o.position).countP (isKnownFilter models registry)

end Omitted

variable {models : List String} {registry : Registry}

/-! ## The two passes -/

/-- What is carried are the comparisons of the filters, in their order. -/
theorem filters_reduce_known (filters : List Filter.Spec) :
    (Filter.reduce (filters.filter (isKnownFilter models registry))).filters =
      filters.filterMap fun f => (carried models registry f).toOption := by
  rw [Filter.filters_reduce, List.filterMap_filter]
  refine List.filterMap_congr fun f _ => ?_
  unfold carried
  cases isKnownFilter models registry f with
  | false => rfl
  | true => cases Filter.comparisonOf f <;> rfl

/-- The first pass reports what is unselected by its positions. -/
theorem unknownFilterWarnings_eq (position : Nat) (filters : List Filter.Spec) :
    ((Filter.numberedFrom position filters).filter fun p => !isKnownFilter models registry p.2).map (fun p =>
        "Filter " ++ Decimal.natText p.1 ++ " (" ++ p.2.left.path
          ++ ") was skipped: it references a field that is not selected.") =
      ((omittedFrom models registry position filters).filter Omitted.isUnselected).map fun o =>
        o.warning o.position := by
  induction filters generalizing position with
  | nil => rfl
  | cons f filters ih =>
    have hrest := ih (position + 1)
    rw [omittedFrom] at hrest ⊢
    rw [Filter.numberedFrom, List.zipIdx_cons, List.filterMap_cons, List.filter_cons, omitted?, carried]
    cases isKnownFilter models registry f with
    | false => exact congrArg (_ :: ·) hrest
    | true => cases Filter.comparisonOf f <;> exact hrest

/-- The second pass reports what is dropped by its place among the filters that the first has kept; `done`
are the filters before. -/
theorem reduceNumbered_warnings (done filters : List Filter.Spec) :
    (Filter.reduceNumbered (Filter.numberedFrom (done.countP (isKnownFilter models registry) + 1)
        (filters.filter (isKnownFilter models registry)))).warnings =
      ((omittedFrom models registry (done.length + 1) filters).filter fun o => !o.isUnselected).map fun o =>
        o.warning (o.number models registry (done ++ filters)) := by
  induction filters generalizing done with
  | nil => rfl
  | cons f filters ih =>
    -- The filter moves over to those that are done, and is counted there when it was kept.
    have hrest := ih (done ++ [f])
    rw [List.append_assoc, List.singleton_append, List.length_append, List.length_singleton, List.countP_append,
      List.countP_singleton] at hrest
    rw [omittedFrom] at hrest ⊢
    rw [List.zipIdx_cons, List.filterMap_cons, omitted?, carried, List.filter_cons]
    cases hknown : isKnownFilter models registry f with
    | false =>
      rw [hknown] at hrest
      exact hrest
    | true =>
      rw [hknown] at hrest
      rw [if_pos rfl, Filter.numberedFrom, Filter.reduceNumbered]
      cases Filter.comparisonOf f with
      | ok c => exact hrest
      | error reason =>
        rw [if_pos rfl] at hrest
        have hnumber :
            (Omitted.mk (done.length + 1) f (.dropped reason)).number models registry (done ++ f :: filters) =
            done.countP (isKnownFilter models registry) + 1 := by
          rw [Omitted.number, List.take_length_add_append, List.take_succ_cons, List.take_zero, List.countP_append,
            List.countP_singleton, hknown, if_pos rfl]
        have hkept : (!(Omitted.mk (done.length + 1) f (.dropped reason)).isUnselected) = true := rfl
        simp only [if_true, Except.mapError]
        rw [List.filter_cons, if_pos hkept, List.map_cons, hnumber, ← hrest]
        rfl

/-! ## Warnings about filters -/

/-- How every warning about a filter begins. -/
def filterMark : String := "Filter "

/-- The warning is about a filter. -/
def isAboutFilter (warning : String) : Bool := filterMark.toList.isPrefixOf warning.toList

theorem isAboutFilter_eq_false {warning : String} {c : Char} (h : warning.toList.head? = some c) (hc : c ≠ 'F') :
    isAboutFilter warning = false := by
  rw [isAboutFilter, ← Bool.not_eq_true, List.isPrefixOf_iff_prefix]
  rintro ⟨tail, htail⟩
  rw [← htail] at h
  exact hc (Option.some.inj h).symm

theorem head?_toList_append {mark : String} {c : Char} (h : mark.toList.head? = some c) (rest : String) :
    (mark ++ rest).toList.head? = some c := by
  rw [String.toList_append, List.head?_append, h, Option.some_or]

/-- A warning about a filter says its number behind the mark. -/
theorem warning_toList (o : Omitted) (number : Nat) :
    ∃ rest, (o.warning number).toList = filterMark.toList ++ (Nat.toDigits 10 number ++ ' ' :: rest) := by
  have hspell (text : String) : ("Filter " ++ Decimal.natText number ++ " (" ++ text).toList =
      filterMark.toList ++ (Nat.toDigits 10 number ++ ' ' :: ('(' :: text.toList)) := by
    simp only [Decimal.natText, String.toList_append, String.toList_ofList, List.append_assoc]
    rfl
  obtain ⟨position, f, omission⟩ := o
  cases omission with
  | unselected =>
    rw [Omitted.warning, String.append_assoc]
    exact ⟨_, hspell _⟩
  | dropped reason =>
    simp only [Omitted.warning, Filter.Spec.label]
    rw [String.append_assoc, String.append_assoc, String.append_assoc, String.append_assoc, String.append_assoc]
    exact ⟨_, hspell _⟩

theorem isAboutFilter_warning (o : Omitted) (number : Nat) : isAboutFilter (o.warning number) = true := by
  obtain ⟨rest, hrest⟩ := warning_toList o number
  rw [isAboutFilter, hrest, List.isPrefixOf_iff_prefix]
  exact List.prefix_append ..

/-- The number that a warning about a filter says. -/
def saidNumber (warning : String) : Nat :=
  Nat.ofDigitChars 10 ((warning.toList.drop filterMark.toList.length).takeWhile Char.isDigit) 0

theorem saidNumber_warning (o : Omitted) (number : Nat) : saidNumber (o.warning number) = number := by
  obtain ⟨rest, hrest⟩ := warning_toList o number
  rw [saidNumber, hrest, List.drop_left, List.takeWhile_append_of_pos fun c hc => Decimal.isDigit_of_mem_toDigits hc,
    List.takeWhile_cons_of_neg (by decide), List.append_nil, Decimal.ofDigitChars_toDigits]

/-! ## Warnings about anything else -/

theorem isAboutFilter_of_comparisonSeries {v : Visual} {columns : List ColumnOption} {primary : Option ColumnOption}
    {w : String} (h : w ∈ (comparisonSeries v columns primary).2) : isAboutFilter w = false := by
  suffices hhead : w.toList.head? = some 'C' from isAboutFilter_eq_false hhead (by decide)
  unfold comparisonSeries at h
  split at h
  · cases h
  · cases h
  · split at h
    · rw [List.mem_singleton.mp h]
      rfl
    · rw [List.mem_singleton.mp h]
      exact head?_toList_append (head?_toList_append rfl _) _
    · split at h
      · rw [List.mem_singleton.mp h]
        rfl
      · cases h

theorem isAboutFilter_of_grouping {v : Visual} {columns : List ColumnOption} {w : String}
    (h : w ∈ (grouping v columns).2) : isAboutFilter w = false := by
  suffices hhead : w.toList.head? = some 'T' from isAboutFilter_eq_false hhead (by decide)
  unfold grouping at h
  split at h
  · cases h
  · split at h
    · cases h
    · split at h
      · cases h
      · rw [List.mem_singleton.mp h]
        exact head?_toList_append (head?_toList_append (head?_toList_append (head?_toList_append rfl _) _) _) _

theorem isAboutFilter_skippedField (id reason : String) : isAboutFilter (skippedField id reason) = false := by
  suffices hhead : (skippedField id reason).toList.head? = some 'D' from isAboutFilter_eq_false hhead (by decide)
  exact head?_toList_append (head?_toList_append (head?_toList_append (head?_toList_append rfl _) _) _) _

theorem isAboutFilter_of_requestWarnings {wanted : List String} {fields : List DerivedField} {w : String}
    (h : w ∈ requestWarnings wanted fields) : isAboutFilter w = false := by
  rcases List.mem_append.mp h with h | h
  · obtain ⟨id, -, rfl⟩ := List.mem_map.mp h
    exact isAboutFilter_skippedField id _
  · obtain ⟨f, -, hf⟩ := List.mem_filterMap.mp h
    obtain ⟨reason, -, rfl⟩ := Option.map_eq_some_iff.mp hf
    exact isAboutFilter_skippedField f.id reason

theorem isAboutFilter_of_withFreeAliases {taken : List String} {columns : List DerivedColumn} {w : String}
    (h : w ∈ (withFreeAliases taken columns).2) : isAboutFilter w = false := by
  induction columns generalizing taken with
  | nil => cases h
  | cons d columns ih =>
    rw [withFreeAliases] at h
    split at h
    · rcases List.mem_cons.mp h with rfl | h
      · exact isAboutFilter_skippedField d.id _
      · exact ih h
    · exact ih h

theorem isAboutFilter_of_keptOrder {s : Selection} {aliases : List String} {metrics : List Metric} {w : String}
    (h : w ∈ (keptOrder s aliases metrics).2) : isAboutFilter w = false := by
  suffices hhead : w.toList.head? = some 'O' from isAboutFilter_eq_false hhead (by decide)
  have hwarnings : (keptOrder s aliases metrics).2 =
      if (s.orderBy.filter fun o => aliases.contains o.outputAlias).length == s.orderBy.length then []
      else ["Ordering on columns that are not part of the query was dropped."] := by
    unfold keptOrder
    dsimp only
    split <;> rfl
  rw [hwarnings] at h
  split at h
  · cases h
  · rw [List.mem_singleton.mp h]
    rfl

/-- The warnings about filters are those of the two passes. -/
theorem filterWarnings_of_assemble {s : Selection} {fields : List DerivedField} {settings : Settings} {a : Assembly}
    (h : assemble s fields registry settings = .ok a) :
    let models := Collection.distinct s.models
    a.warnings.filter isAboutFilter =
      (unknownFilterWarnings models registry s.filters ++
        (Filter.reduce (s.filters.filter (isKnownFilter models registry))).warnings).filter isAboutFilter := by
  obtain ⟨columns, primary, aliases, metrics, -, -, hwarnings⟩ := warnings_of_assemble h
  rw [hwarnings]
  have hnone {ws : List String} (hws : ∀ w ∈ ws, isAboutFilter w = false) : ws.filter isAboutFilter = [] :=
    List.filter_eq_nil_iff.mpr fun w hw => Bool.eq_false_iff.mp (hws w hw)
  simp only [List.filter_append]
  rw [hnone fun w => isAboutFilter_of_comparisonSeries, hnone fun w => isAboutFilter_of_grouping,
    hnone fun w => isAboutFilter_of_requestWarnings, hnone fun w => isAboutFilter_of_withFreeAliases,
    hnone fun w => isAboutFilter_of_keptOrder]
  simp only [List.nil_append, List.append_nil]

/-! ## Every filter -/

theorem mem_omittedFrom {position : Nat} {filters : List Filter.Spec} {o : Omitted}
    (h : o ∈ omittedFrom models registry position filters) :
    position ≤ o.position ∧ o.position < position + filters.length := by
  obtain ⟨⟨f, i⟩, hmem, hsome⟩ := List.mem_filterMap.mp h
  obtain ⟨hlow, hhigh, -⟩ := List.mem_zipIdx hmem
  unfold omitted? at hsome
  split at hsome
  · cases hsome
  · cases hsome
    exact ⟨hlow, hhigh⟩

/-- What is not carried is left out. -/
theorem length_carried_add_length_omitted (position : Nat) (filters : List Filter.Spec) :
    (filters.filterMap fun f => (carried models registry f).toOption).length +
      (omittedFrom models registry position filters).length = filters.length := by
  induction filters generalizing position with
  | nil => rfl
  | cons f filters ih =>
    have hrest := ih (position + 1)
    rw [omittedFrom] at hrest ⊢
    rw [List.zipIdx_cons, List.filterMap_cons, List.filterMap_cons, omitted?, List.length_cons, ← hrest]
    cases carried models registry f with
    | ok c =>
      simp only [Except.toOption, List.length_cons]
      omega
    | error omission =>
      simp only [Except.toOption, List.length_cons]
      omega

/-- A filter is reported under its position when no filter before it fell out in the first pass. -/
theorem number_eq_position_iff {filters : List Filter.Spec} {o : Omitted} (hbound : o.position ≤ filters.length) :
    o.number models registry filters = o.position ↔
      (o.omission ≠ .unselected → ∀ f ∈ filters.take o.position, isKnownFilter models registry f = true) := by
  obtain ⟨position, f, omission⟩ := o
  have hlength : (filters.take position).length = position := List.length_take_of_le hbound
  cases omission with
  | unselected => exact iff_of_true rfl fun hne => absurd rfl hne
  | dropped reason =>
    rw [Omitted.number]
    constructor
    · intro hcount _
      exact List.countP_eq_length.mp (hcount.trans hlength.symm)
    · intro hall
      exact (List.countP_eq_length.mpr (hall (fun h => nomatch h))).trans hlength

theorem number_le_position (filters : List Filter.Spec) (o : Omitted) :
    o.number models registry filters ≤ o.position := by
  obtain ⟨position, f, omission⟩ := o
  cases omission with
  | unselected => exact le_rfl
  | dropped reason => exact List.countP_le_length.trans (List.length_take_le position filters)

/-- Reports under two numbers each are the same up to their order exactly when the numbers are; here the ones
are at most the others. -/
theorem perm_warning_iff {os : List Omitted} {number position : Omitted → Nat} (hle : ∀ o ∈ os, number o ≤ position o) :
    (os.map fun o => o.warning (number o)).Perm (os.map fun o => o.warning (position o)) ↔
      ∀ o ∈ os, number o = position o := by
  constructor
  · intro hperm o ho
    -- A permutation keeps the sum of the numbers that are said, which one smaller number would lower.
    have hsums := (hperm.map saidNumber).sum_eq
    simp only [List.map_map, Function.comp_def, saidNumber_warning] at hsums
    by_contra hne
    have hlt := List.sum_lt_sum number position hle ⟨o, ho, lt_of_le_of_ne (hle o ho) hne⟩
    exact hlt.ne hsums
  · intro hsame
    rw [List.map_congr_left fun o ho => by rw [hsame o ho]]

section

variable {s : Selection} {fields : List DerivedField} {settings : Settings} {a : Assembly}

/-- The warnings about filters report what is left out, each once. -/
theorem reports_perm (h : assemble s fields registry settings = .ok a) :
    let models := Collection.distinct s.models
    (a.warnings.filter isAboutFilter).Perm
      ((omittedFrom models registry 1 s.filters).map fun o => o.warning (o.number models registry s.filters)) := by
  intro models
  let omitted := omittedFrom models registry 1 s.filters
  let report (o : Omitted) := o.warning (o.number models registry s.filters)
  have hfirst : unknownFilterWarnings models registry s.filters = (omitted.filter Omitted.isUnselected).map report := by
    rw [unknownFilterWarnings, unknownFilterWarnings_eq]
    refine List.map_congr_left fun o ho => ?_
    obtain ⟨position, f, omission⟩ := o
    cases omission with
    | unselected => rfl
    | dropped reason => exact nomatch (List.mem_filter.mp ho).2
  have hsecond : (Filter.reduce (s.filters.filter (isKnownFilter models registry))).warnings =
      (omitted.filter fun o => !o.isUnselected).map report := reduceNumbered_warnings [] s.filters
  have hall : (omitted.map report).filter isAboutFilter = omitted.map report := by
    rw [List.filter_eq_self, List.forall_mem_map]
    exact fun o _ => isAboutFilter_warning o _
  rw [filterWarnings_of_assemble h, hfirst, hsecond, ← List.map_append]
  have hpasses := (List.filter_append_perm Omitted.isUnselected omitted).map report
  exact (hpasses.filter isAboutFilter).trans (List.Perm.of_eq hall)

/-- Each filter of an assembled selection is carried, in its place, or reported by one warning.  A warning
names a filter by its position when it fell out because of a field that is not selected; one that is dropped
for another reason is named by its place among the filters on selected fields.  So all numbers are positions
exactly when no filter on a field that is not selected stands before one that is dropped for another reason. -/
theorem filters_accounted (h : assemble s fields registry settings = .ok a) :
    let models := Collection.distinct s.models
    let omitted := omittedFrom models registry 1 s.filters
    let reports := a.warnings.filter isAboutFilter
    a.config.filters = s.filters.filterMap (fun f => (carried models registry f).toOption) ∧
    a.config.filters.length + omitted.length = s.filters.length ∧
    reports.Perm (omitted.map fun o => o.warning (o.number models registry s.filters)) ∧
    (reports.Perm (omitted.map fun o => o.warning o.position) ↔
      ∀ o ∈ omitted, o.omission ≠ .unselected →
        ∀ f ∈ s.filters.take o.position, isKnownFilter models registry f = true) := by
  intro models omitted reports
  obtain ⟨-, columns, -, hconfig, -⟩ := assemble_eq_ok h
  have hfilters : a.config.filters = s.filters.filterMap fun f => (carried models registry f).toOption := by
    rw [hconfig]
    exact filters_reduce_known s.filters
  have hreports : reports.Perm (omitted.map fun o => o.warning (o.number models registry s.filters)) := reports_perm h
  refine ⟨hfilters, ?_, hreports, ?_⟩
  · rw [hfilters]
    exact length_carried_add_length_omitted 1 s.filters
  · calc reports.Perm (omitted.map fun o => o.warning o.position)
        ↔ (omitted.map fun o => o.warning (o.number models registry s.filters)).Perm
            (omitted.map fun o => o.warning o.position) := ⟨hreports.symm.trans, hreports.trans⟩
      _ ↔ ∀ o ∈ omitted, o.number models registry s.filters = o.position :=
          perm_warning_iff fun o _ => number_le_position s.filters o
      _ ↔ _ := by
          refine forall₂_congr fun o ho => number_eq_position_iff ?_
          have hposition := (mem_omittedFrom ho).2
          omega

end

/-- A search in the texts `m.y`: no comparison. -/
def searching : Filter.Spec := ⟨none, ⟨"m", "y"⟩, .search .contains, .value, some "a", none, .string⟩

/-- A comparison of the texts `m.y`. -/
def matching : Filter.Spec := ⟨none, ⟨"m", "y"⟩, .compare .eq, .value, some "a", none, .string⟩

/-- A comparison of a field that is not selected. -/
def astray : Filter.Spec := ⟨none, ⟨"n", "z"⟩, .compare .eq, .value, some "1", none, .string⟩

/-- The selection of `m.x` and `m.y` under filters. -/
def filtering (filters : List Filter.Spec) : Selection := { picking "m" ["x", "y"] with filters }

/-- The filter on a field that is not selected comes last, and the reports say the positions. -/
theorem filters_accounted_astray_last :
    ∃ a, assemble (filtering [matching, searching, astray]) [] (numbersAndTexts "x" "y") Settings.standard = .ok a ∧
      a.config.filters = [⟨⟨"m", "y"⟩, .eq, .text "a"⟩] ∧
      (a.warnings.filter isAboutFilter).Perm
        ["Filter 2 (m.y contains) was skipped: operator is not supported for analytics queries.",
          "Filter 3 (n.z) was skipped: it references a field that is not selected."] := by
  obtain ⟨a, ha⟩ : ∃ a, assemble (filtering [matching, searching, astray]) [] (numbersAndTexts "x" "y")
      Settings.standard = .ok a := ⟨_, rfl⟩
  obtain ⟨hfilters, -, -, hpositions⟩ := filters_accounted ha
  refine ⟨a, ha, hfilters, hpositions.mpr ?_⟩
  decide +kernel

/-- The filter on a field that is not selected comes first, and the second filter is reported as the first. -/
theorem second_filter_reported_as_first :
    ∃ a, assemble (filtering [astray, searching]) [] (numbersAndTexts "x" "y") Settings.standard = .ok a ∧
      a.warnings.filter isAboutFilter =
        ["Filter 1 (n.z) was skipped: it references a field that is not selected.",
          "Filter 1 (m.y contains) was skipped: operator is not supported for analytics queries."] ∧
      ¬ (a.warnings.filter isAboutFilter).Perm
        ((omittedFrom ["m"] (numbersAndTexts "x" "y") 1 [astray, searching]).map fun o => o.warning o.position) := by
  refine ⟨_, rfl, ?_⟩
  decide +kernel

end AdhocReport.Query
