import AdhocReport.Query.Assembly
import AdhocReport.Proofs.Query.Alias
import Mathlib.Data.List.Nodup
set_option autoImplicit false

/-!
# Queries: what a visual picks

The visual of a selection picks columns by their aliases.  Whatever it asks for, once repaired it picks at
most two metrics, of numeric columns that differ, and at most one dimension, and all of them are columns of
selected models.
-/

namespace AdhocReport

namespace Query

/-- The metrics of a selection, its visual repaired. -/
def pickedMetrics (s : Selection) (registry : Schema.Registry) : List Metric :=
  let columns := availableColumns s registry
  let visual := repairVisual s.visual columns
  let primary := columnOfAlias columns visual.metric
  primary.toList.map (metricOf · visual.metricAggregation) ++ (comparisonSeries visual columns primary).1

/-- The dimensions of a selection, its visual repaired. -/
def pickedDimensions (s : Selection) (registry : Schema.Registry) : List Dimension :=
  let columns := availableColumns s registry
  (grouping (repairVisual s.visual columns) columns).1

variable {s : Selection} {registry : Schema.Registry}

/-- A selected column: a field of a selected model, as the registry has it. -/
structure ColumnOption.Selected (c : ColumnOption) (s : Selection) (registry : Schema.Registry) : Prop where
  model_mem : c.ref.model ∈ s.models
  outputAlias_eq : c.outputAlias = columnAlias c.ref
  known : ∃ m, registry.model? c.ref.model = some m ∧ ∃ f ∈ m.fields, f.id = c.ref.field ∧ f.type = c.type

theorem mem_of_field? {m : Schema.Model} {id : String} {f : Schema.Field} (h : m.field? id = some f) :
    f ∈ m.fields := by
  unfold Schema.Model.field? at h
  split at h
  · rename_i found hfound
    cases h
    exact List.mem_of_find?_eq_some hfound
  · exact List.mem_of_find?_eq_some h

theorem selected_of_mem {c : ColumnOption} (h : c ∈ availableColumns s registry) : c.Selected s registry := by
  obtain ⟨model, hmodel, hc⟩ := List.mem_flatMap.mp h
  unfold columnsOf at hc
  split at hc
  · cases hc
  · rename_i m hm
    obtain ⟨id, -, hid⟩ := List.mem_filterMap.mp hc
    obtain ⟨f, hf, rfl⟩ := Option.map_eq_some_iff.mp hid
    exact ⟨Collection.mem_distinct.mp hmodel, rfl, m, hm, f, mem_of_field? hf, rfl, rfl⟩

theorem mem_of_columnOfAlias {columns : List ColumnOption} {outputAlias : Option String} {c : ColumnOption}
    (h : columnOfAlias columns outputAlias = some c) : c ∈ columns ∧ outputAlias = some c.outputAlias := by
  obtain ⟨a, rfl, ha⟩ := Option.bind_eq_some_iff.mp h
  refine ⟨List.mem_reverse.mp (List.mem_of_find?_eq_some ha), ?_⟩
  have hsame := List.find?_some ha
  rw [beq_iff_eq] at hsame
  rw [hsame]

/-- The series is one metric of a column other than the primary one, or none. -/
theorem comparisonSeries_cases (v : Visual) (columns : List ColumnOption) (primary : Option ColumnOption) :
    (comparisonSeries v columns primary).1 = [] ∨
      ∃ p c a, primary = some p ∧ columnOfAlias columns v.comparison = some c ∧ c.outputAlias ≠ p.outputAlias ∧
        (comparisonSeries v columns primary).1 = [metricOf c a] := by
  unfold comparisonSeries
  split
  · exact .inl rfl
  · exact .inl rfl
  · split
    · exact .inl rfl
    · exact .inl rfl
    · rename_i p c hc
      split
      · exact .inl rfl
      · rename_i hne
        exact .inr ⟨p, c, _, rfl, hc, by simpa using hne, rfl⟩

theorem mem_of_keepOrFirst {pick : Option String} {candidates : List String} {a : String}
    (h : keepOrFirst pick candidates = some a) : a ∈ candidates := by
  unfold keepOrFirst at h
  split at h
  · split at h
    · rename_i hmem
      cases h
      simpa using hmem
    · exact List.mem_of_head? h
  · exact List.mem_of_head? h

theorem mem_of_repairedComparison {pick metric : Option String} {numeric : List String} {a : String}
    (h : repairedComparison pick metric numeric = some a) : a ∈ numeric := by
  unfold repairedComparison at h
  split at h
  · cases h
  · split at h
    · rename_i hmem
      cases h
      simpa using hmem
    · exact (List.mem_filter.mp (List.mem_of_head? h)).1

/-- A metric can be made of the column: it is selected, and a numeric column bears its alias. -/
structure ColumnOption.Measured (c : ColumnOption) (columns : List ColumnOption) : Prop where
  mem : c ∈ columns
  numeric : c.outputAlias ∈ numericAliases columns

/-- The metrics of a selection: none, that of the primary column, or that and one of another column. -/
theorem pickedMetrics_cases (s : Selection) (registry : Schema.Registry) :
    pickedMetrics s registry = [] ∨
      ∃ p : ColumnOption, p.Measured (availableColumns s registry) ∧
        ∃ a, pickedMetrics s registry = [metricOf p a] ∨
          ∃ c : ColumnOption, c.Measured (availableColumns s registry) ∧
            ∃ b, c.outputAlias ≠ p.outputAlias ∧ pickedMetrics s registry = [metricOf p a, metricOf c b] := by
  unfold pickedMetrics
  generalize availableColumns s registry = columns
  dsimp only
  have hprimary {p : ColumnOption} (h : columnOfAlias columns (repairVisual s.visual columns).metric = some p) :
      p.Measured columns :=
    ⟨(mem_of_columnOfAlias h).1,
      mem_of_keepOrFirst ((metric_repairVisual s.visual columns).symm.trans (mem_of_columnOfAlias h).2)⟩
  have hseries {c : ColumnOption}
      (h : columnOfAlias columns (repairVisual s.visual columns).comparison = some c) : c.Measured columns :=
    ⟨(mem_of_columnOfAlias h).1,
      mem_of_repairedComparison ((comparison_repairVisual s.visual columns).symm.trans (mem_of_columnOfAlias h).2)⟩
  generalize repairVisual s.visual columns = v at hprimary hseries
  rcases comparisonSeries_cases v columns (columnOfAlias columns v.metric) with hnone | ⟨p, c, b, hp, hc, hne, hone⟩
  · rw [hnone, List.append_nil]
    cases hp : columnOfAlias columns v.metric with
    | none => exact .inl rfl
    | some p => exact .inr ⟨p, hprimary hp, v.metricAggregation, .inl rfl⟩
  · rw [hone, hp]
    exact .inr ⟨p, hprimary hp, v.metricAggregation, .inr ⟨c, hseries hc, b, hne, rfl⟩⟩

theorem mem_of_pickedMetrics {m : Metric} (h : m ∈ pickedMetrics s registry) :
    ∃ c : ColumnOption, c.Measured (availableColumns s registry) ∧ ∃ a, m = metricOf c a := by
  rcases pickedMetrics_cases s registry with hnone | ⟨p, hp, a, hone | ⟨c, hc, b, -, htwo⟩⟩
  · rw [hnone] at h
    cases h
  · rw [hone, List.mem_singleton] at h
    exact ⟨p, hp, a, h⟩
  · rw [htwo, List.mem_pair] at h
    rcases h with h | h
    · exact ⟨p, hp, a, h⟩
    · exact ⟨c, hc, b, h⟩

/-- Two metrics of different columns have different aliases. -/
theorem nodup_metricAliases (s : Selection) (registry : Schema.Registry) :
    ((pickedMetrics s registry).map (·.outputAlias)).Nodup := by
  rcases pickedMetrics_cases s registry with hnone | ⟨p, -, a, hone | ⟨c, -, b, hne, htwo⟩⟩
  · rw [hnone]
    exact List.nodup_nil
  · rw [hone]
    exact List.nodup_singleton _
  · rw [htwo]
    refine List.nodup_cons.mpr ⟨fun hmem => hne ?_, List.nodup_singleton _⟩
    exact (metricAlias_base (List.mem_singleton.mp hmem)).symm

/-- The dimensions of a selection: none, or that of one column, which bears the name of the column
unless the column holds dates that are bucketed. -/
theorem pickedDimensions_cases (s : Selection) (registry : Schema.Registry) :
    pickedDimensions s registry = [] ∨
      ∃ c ∈ availableColumns s registry, ∃ bucket, (bucket ≠ none → c.type = .date) ∧
        pickedDimensions s registry = [⟨c.ref, bucket, dimensionAlias c.outputAlias bucket⟩] := by
  unfold pickedDimensions
  generalize hcolumns : availableColumns s registry = columns
  dsimp only
  generalize repairVisual s.visual columns = v
  unfold grouping
  split
  · exact .inl rfl
  · rename_i c hc
    refine .inr ⟨c, (mem_of_columnOfAlias hc).1, ?_⟩
    split
    · exact ⟨none, fun h => absurd rfl h, rfl⟩
    · rename_i b hb
      split
      · rename_i hdate
        exact ⟨some b, fun _ => by simpa using hdate, rfl⟩
      · exact ⟨none, fun h => absurd rfl h, rfl⟩

theorem mem_of_pickedDimensions {d : Dimension} (h : d ∈ pickedDimensions s registry) :
    ∃ c ∈ availableColumns s registry, (d.bucket ≠ none → c.type = .date) ∧ d.ref = c.ref ∧
      d.outputAlias = dimensionAlias c.outputAlias d.bucket := by
  rcases pickedDimensions_cases s registry with hnone | ⟨c, hc, bucket, hdate, hone⟩
  · rw [hnone] at h
    cases h
  · rw [hone, List.mem_singleton] at h
    subst h
    exact ⟨c, hc, hdate, rfl, rfl⟩

theorem nodup_dimensionAliases (s : Selection) (registry : Schema.Registry) :
    ((pickedDimensions s registry).map (·.outputAlias)).Nodup := by
  rcases pickedDimensions_cases s registry with hnone | ⟨c, -, bucket, -, hone⟩
  · rw [hnone]
    exact List.nodup_nil
  · rw [hone]
    exact List.nodup_singleton _

end Query

end AdhocReport
