import AdhocReport.Query.Config
import Mathlib.Data.List.Nodup
set_option autoImplicit false

/-!
# Queries: parts that fit together

A configuration without an objection, described without the search for one: models and output
aliases do not repeat, no part mentions a model that is not selected, and the order is by aliases
that are put out.
-/

namespace AdhocReport

namespace Collection

variable {α : Type} [DecidableEq α]

theorem distinct_sublist (xs : List α) : (distinct xs).Sublist xs := by
  induction xs with
  | nil => exact .slnil
  | cons x xs ih => exact (List.filter_sublist.trans ih).cons_cons x

theorem distinct_of_nodup {xs : List α} (h : xs.Nodup) : distinct xs = xs := by
  induction xs with
  | nil => rfl
  | cons x xs ih =>
    obtain ⟨hx, hxs⟩ := List.nodup_cons.mp h
    rw [distinct, ih hxs, List.filter_eq_self.mpr]
    intro y hy
    simp only [ne_eq, decide_not, Bool.not_eq_eq_eq_not, Bool.not_true, decide_eq_false_iff_not]
    rintro rfl
    exact hx hy

theorem length_distinct_iff {xs : List α} : (distinct xs).length = xs.length ↔ xs.Nodup := by
  constructor
  · intro h
    rw [← (distinct_sublist xs).eq_of_length h]
    exact nodup_distinct xs
  · intro h
    rw [distinct_of_nodup h]

end Collection

namespace Query.Config

theorem hasRepeats_eq_false_iff {xs : List String} : hasRepeats xs = false ↔ xs.Nodup := by
  rw [hasRepeats, bne_eq_false_iff_eq, Collection.length_distinct_iff]

/-- The models do not repeat, and no part mentions another model. -/
structure Placed (c : Config) : Prop where
  models : c.models.Nodup
  joins : ∀ j ∈ c.joins, j.left.model ∈ c.models ∧ j.right.model ∈ c.models
  columns : ∀ r ∈ c.metrics.map (·.ref) ++ c.dimensions.map (·.ref), r.model ∈ c.models
  filters : ∀ f ∈ c.filters, f.left.model ∈ c.models

/-- The parts of a configuration fit together. -/
structure Fits (c : Config) : Prop extends c.Placed where
  aliases : c.outputAliases.Nodup
  order : ∀ o ∈ c.orderBy, o.outputAlias ∈ c.outputAliases

variable {c : Config}

theorem Placed.of_objection (h : c.objection = none) : c.Placed := by
  unfold objection at h
  split at h
  · cases h
  rename_i hmodels
  dsimp only at h
  split at h
  · cases h
  rename_i hjoins
  split at h
  · cases h
  rename_i hcolumns
  split at h
  · cases h
  rename_i hfilters
  refine ⟨hasRepeats_eq_false_iff.mp (Bool.eq_false_iff.mpr hmodels), fun j hj => ?_, fun r hr => ?_,
    fun f hf => ?_⟩
  · simpa using List.find?_eq_none.mp hjoins j hj
  · simpa using List.find?_eq_none.mp hcolumns r hr
  · simpa using List.find?_eq_none.mp hfilters f hf

/-- Where every part has its place, only aliases are left to object to. -/
theorem Placed.objection_eq (h : c.Placed) :
    c.objection =
      if hasRepeats c.outputAliases then
        some ("Output aliases must be unique: " ++ Json.joined ", "
          (Collection.sortedSet (c.outputAliases.filter fun a => 1 < c.outputAliases.count a)))
      else (c.orderBy.find? fun o => !c.outputAliases.contains o.outputAlias).map fun o =>
        "Cannot order by unknown alias '" ++ o.outputAlias ++ "'" := by
  have hjoins : (c.joins.find? fun j => !(c.models.contains j.left.model && c.models.contains j.right.model)) =
      none := by
    rw [List.find?_eq_none]
    intro j hj
    simp [h.joins j hj]
  have hcolumns : ((c.metrics.map (·.ref) ++ c.dimensions.map (·.ref)).find? fun r => !c.models.contains r.model) =
      none := by
    rw [List.find?_eq_none]
    intro r hr
    simp [h.columns r hr]
  have hfilters : (c.filters.find? fun f => !c.models.contains f.left.model) = none := by
    rw [List.find?_eq_none]
    intro f hf
    simp [h.filters f hf]
  simp only [objection, hasRepeats_eq_false_iff.mpr h.models, hjoins, hcolumns, hfilters, Bool.false_eq_true,
    if_false]
  cases (c.orderBy.find? fun o => !c.outputAliases.contains o.outputAlias) <;> rfl

/-- There is no objection exactly to what fits together. -/
theorem objection_eq_none_iff : c.objection = none ↔ c.Fits := by
  constructor
  · intro h
    have hplaced := Placed.of_objection h
    rw [hplaced.objection_eq] at h
    split at h
    · cases h
    rename_i haliases
    have horder := Option.map_eq_none_iff.mp h
    refine ⟨hplaced, hasRepeats_eq_false_iff.mp (Bool.eq_false_iff.mpr haliases), fun o ho => ?_⟩
    simpa using List.find?_eq_none.mp horder o ho
  · intro h
    have horder : (c.orderBy.find? fun o => !c.outputAliases.contains o.outputAlias) = none := by
      rw [List.find?_eq_none]
      intro o ho
      simp [h.order o ho]
    rw [h.toPlaced.objection_eq, hasRepeats_eq_false_iff.mpr h.aliases, horder]
    rfl

end Query.Config

end AdhocReport
