import AdhocReport.Query.Column
import Mathlib.Data.List.Infix
set_option autoImplicit false

/-!
# Queries: aliases

An aggregated or bucketed column is named by its base, an underscore and a code.  No code together
with its underscore ends in another one, so such an alias tells its base and its code: two metrics
share an alias only if they are the same, and a metric never shares one with a bucketed dimension.
A dimension without a bucket bears its base alone, and about that nothing can be said: the base may
end in any code.
-/

namespace AdhocReport.Query

/-- The codes that an alias may end in, each after its underscore. -/
def suffixes : List (List Char) :=
  ((Aggregation.codes.map (·.1)) ++ TimeBucket.codes.map (·.1)).map fun code => '_' :: code.toList

/-- No suffix ends in another one. -/
theorem suffixes_apart : ∀ s ∈ suffixes, ∀ t ∈ suffixes, s <:+ t → s = t := by
  decide +kernel

/-- A text that ends in a suffix does so in one way. -/
theorem append_suffix_inj {xs ys s t : List Char} (hs : s ∈ suffixes) (ht : t ∈ suffixes)
    (h : xs ++ s = ys ++ t) : xs = ys ∧ s = t := by
  have hsuffix : s <:+ ys ++ t := ⟨xs, h⟩
  have hsame : s = t := by
    rcases List.suffix_or_suffix_of_suffix hsuffix (List.suffix_append ys t) with hst | hts
    · exact suffixes_apart s hs t ht hst
    · exact (suffixes_apart t ht s hs hts).symm
  subst hsame
  exact ⟨List.append_cancel_right h, rfl⟩

theorem metricAlias_toList (base : String) (a : Aggregation) :
    (metricAlias base a).toList = base.toList ++ '_' :: a.code.toList := by
  simp [metricAlias]

theorem dimensionAlias_toList (base : String) (b : TimeBucket) :
    (dimensionAlias base (some b)).toList = base.toList ++ '_' :: b.code.toList := by
  simp [dimensionAlias]

theorem aggregation_mem_suffixes (a : Aggregation) : '_' :: a.code.toList ∈ suffixes := by
  cases a <;> decide +kernel

theorem bucket_mem_suffixes (b : TimeBucket) : '_' :: b.code.toList ∈ suffixes := by
  cases b <;> decide +kernel

theorem metricAlias_base {base base' : String} {a a' : Aggregation}
    (h : metricAlias base a = metricAlias base' a') : base = base' := by
  have hchars := congrArg String.toList h
  rw [metricAlias_toList, metricAlias_toList] at hchars
  exact String.toList_inj.mp
    (append_suffix_inj (aggregation_mem_suffixes a) (aggregation_mem_suffixes a') hchars).1

/-- The code of an aggregation is that of no bucket. -/
theorem metricAlias_ne_bucketed (base base' : String) (a : Aggregation) (b : TimeBucket) :
    metricAlias base a ≠ dimensionAlias base' (some b) := by
  intro h
  have hchars := congrArg String.toList h
  rw [metricAlias_toList, dimensionAlias_toList] at hchars
  have hcode := (append_suffix_inj (aggregation_mem_suffixes a) (bucket_mem_suffixes b) hchars).2
  cases a <;> cases b <;> exact absurd hcode (by decide)

end AdhocReport.Query
