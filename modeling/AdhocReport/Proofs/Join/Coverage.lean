import AdhocReport.Join.Graph
import AdhocReport.Proofs.Join.Pairs
import Mathlib.Data.List.Infix
set_option autoImplicit false

/-!
# Joins: coverage

A pair that a derived field needs counts as joined when its key is the key of some join.  So coverage is
right about a pair as long as no other two models have its key.  The two ids of a key stand on both sides
of two colons: where neither id holds two colons, begins with one or ends with one, the key can be cut in
one place only, and gives the pair back.
-/

namespace AdhocReport.Join

/-- The join connects the two models of the pair, in either direction: they differ, and both have ids. -/
def Connects (j p : String × String) : Prop := (j.1 ≠ "" ∧ j.2 ≠ "" ∧ j.1 ≠ j.2) ∧ (j = p ∨ j.swap = p)

instance (j p : String × String) : Decidable (Connects j p) := inferInstanceAs (Decidable (_ ∧ _))

/-- No join of two other models has the key of the pair. -/
def Identified (p : String × String) : Prop :=
  ∀ j : String × String, j.1 ≠ "" → j.2 ≠ "" → j.1 ≠ j.2 → pairKey j.1 j.2 = pairKey p.1 p.2 → Connects j p

/-- Two colons stand side by side neither in the id nor between it and a colon next to it. -/
def Unbroken (id : String) : Prop := ¬ [':', ':'] <:+: ':' :: id.toList ++ [':']

instance (id : String) : Decidable (Unbroken id) := inferInstanceAs (Decidable (¬ _))

/-! ## Keys -/

theorem pairKey_eq (a b : String) : pairKey a b = a ++ "::" ++ b ∨ pairKey a b = b ++ "::" ++ a := by
  unfold pairKey
  split
  · exact .inr rfl
  · exact .inl rfl

/-- The key of a pair does not depend on the order of its ids. -/
theorem pairKey_comm (a b : String) : pairKey a b = pairKey b a := by
  unfold pairKey
  by_cases hlt : a < b
  · rw [if_neg (String.lt_asymm hlt), if_pos hlt]
  · by_cases hgt : b < a
    · rw [if_pos hgt, if_neg hlt]
    · obtain rfl : a = b := String.le_antisymm (String.not_lt.mp hgt) (String.not_lt.mp hlt)
      rfl

theorem pairKey_of_connects {j p : String × String} (h : Connects j p) : pairKey j.1 j.2 = pairKey p.1 p.2 := by
  obtain ⟨-, rfl | rfl⟩ := h
  · rfl
  · exact pairKey_comm j.1 j.2

/-- Two texts around two colons are found again where no other two colons stand side by side. -/
theorem cut_unique {x y u v : List Char} (hx : ¬ [':', ':'] <:+: x ++ [':']) (hy : ¬ [':', ':'] <:+: ':' :: y)
    (h : x ++ ':' :: ':' :: y = u ++ ':' :: ':' :: v) : x = u ∧ y = v := by
  rcases List.append_eq_append_iff.mp h with ⟨w, rfl, hw⟩ | ⟨w, rfl, hw⟩
  · match w with
    | [] =>
      simp only [List.nil_append, List.cons.injEq, true_and] at hw
      exact ⟨(List.append_nil x).symm, hw⟩
    | [c] =>
      simp only [List.cons_append, List.nil_append, List.cons.injEq] at hw
      exact absurd ⟨[], v, by simp [hw.2.2]⟩ hy
    | c :: d :: w =>
      simp only [List.cons_append, List.cons.injEq] at hw
      exact absurd ⟨':' :: w, v, by simp [hw.2.2]⟩ hy
  · match w with
    | [] =>
      simp only [List.nil_append, List.cons.injEq, true_and] at hw
      exact ⟨List.append_nil u, hw.symm⟩
    | [c] =>
      simp only [List.cons_append, List.nil_append, List.cons.injEq] at hw
      exact absurd ⟨u, [], by simp [← hw.1]⟩ hx
    | c :: d :: w =>
      simp only [List.cons_append, List.cons.injEq] at hw
      exact absurd ⟨u, w ++ [':'], by simp [← hw.1, ← hw.2.1]⟩ hx

theorem eq_of_joined {a b c d : String} (ha : Unbroken a) (hb : Unbroken b)
    (h : c ++ "::" ++ d = a ++ "::" ++ b) : c = a ∧ d = b := by
  have hbehind : ¬ [':', ':'] <:+: a.toList ++ [':'] := fun hin => ha (List.infix_cons hin)
  have hbefore : ¬ [':', ':'] <:+: ':' :: b.toList := fun hin => hb (hin.trans (List.prefix_append _ [':']).isInfix)
  have hchars : a.toList ++ ':' :: ':' :: b.toList = c.toList ++ ':' :: ':' :: d.toList := by
    simpa using congrArg String.toList h.symm
  obtain ⟨hfirst, hsecond⟩ := cut_unique hbehind hbefore hchars
  exact ⟨String.toList_inj.mp hfirst.symm, String.toList_inj.mp hsecond.symm⟩

/-- Ids without colons side by side make a key that no other two models have. -/
theorem identified_of_unbroken {p : String × String} (h₁ : Unbroken p.1) (h₂ : Unbroken p.2) : Identified p := by
  intro j hleft hright hne hkey
  refine ⟨⟨hleft, hright, hne⟩, ?_⟩
  rcases pairKey_eq j.1 j.2 with hj | hj <;> rcases pairKey_eq p.1 p.2 with hp | hp <;> rw [hj, hp] at hkey
  · obtain ⟨hfirst, hsecond⟩ := eq_of_joined h₁ h₂ hkey
    exact .inl (Prod.ext hfirst hsecond)
  · obtain ⟨hfirst, hsecond⟩ := eq_of_joined h₂ h₁ hkey
    exact .inr (Prod.ext hsecond hfirst)
  · obtain ⟨hsecond, hfirst⟩ := eq_of_joined h₁ h₂ hkey
    exact .inr (Prod.ext hsecond hfirst)
  · obtain ⟨hsecond, hfirst⟩ := eq_of_joined h₂ h₁ hkey
    exact .inl (Prod.ext hfirst hsecond)

/-! ## Coverage -/

theorem mem_pairKeys {joins : List (String × String)} {key : String} :
    key ∈ pairKeys joins ↔
      ∃ j ∈ joins, (j.1 ≠ "" ∧ j.2 ≠ "" ∧ j.1 ≠ j.2) ∧ pairKey j.1 j.2 = key := by
  simp only [pairKeys, Collection.mem_sortedSet, List.mem_map, List.mem_filter, Bool.and_eq_true, bne_iff_ne,
    and_assoc]

theorem map_pair_coverage (stored : List (String × String)) (models keys : List String) :
    (coverage stored models keys).map (·.pair) = neededPairs stored models := by
  simp [coverage, Function.comp_def]

section

variable {stored joins : List (String × String)} {models : List String} {c : Coverage}

/-- A pair is satisfied when some join of two models has its key. -/
theorem satisfied_iff (h : c ∈ coverage stored models (pairKeys joins)) :
    c.satisfied = true ↔
      ∃ j ∈ joins, (j.1 ≠ "" ∧ j.2 ≠ "" ∧ j.1 ≠ j.2) ∧ pairKey j.1 j.2 = pairKey c.pair.1 c.pair.2 := by
  obtain ⟨p, -, rfl⟩ := List.mem_map.mp h
  rw [← mem_pairKeys]
  exact List.contains_iff_mem

theorem satisfied_of_connects (h : c ∈ coverage stored models (pairKeys joins))
    (hconnects : ∃ j ∈ joins, Connects j c.pair) : c.satisfied = true := by
  obtain ⟨j, hj, hconnects⟩ := hconnects
  exact (satisfied_iff h).mpr ⟨j, hj, hconnects.1, pairKey_of_connects hconnects⟩

theorem satisfied_iff_connects (h : c ∈ coverage stored models (pairKeys joins)) (hpair : Identified c.pair) :
    c.satisfied = true ↔ ∃ j ∈ joins, Connects j c.pair := by
  refine ⟨fun hsatisfied => ?_, satisfied_of_connects h⟩
  obtain ⟨j, hj, ⟨hleft, hright, hne⟩, hkey⟩ := (satisfied_iff h).mp hsatisfied
  exact ⟨j, hj, hpair j hleft hright hne hkey⟩

end

/-- Whether coverage is right about a pair for all joins comes down to its key. -/
theorem identified_iff (p : String × String) (models : List String) :
    Identified p ↔ ∀ joins, ∀ c ∈ coverage [p] models (pairKeys joins),
      (c.satisfied = true ↔ ∃ j ∈ joins, Connects j c.pair) := by
  refine ⟨fun hpair joins c hc => ?_, fun hall j hleft hright hne hkey => ?_⟩
  · have hpairs := List.mem_map_of_mem (f := Coverage.pair) hc
    rw [map_pair_coverage] at hpairs
    obtain rfl : c.pair = p := List.mem_singleton.mp hpairs
    exact satisfied_iff_connects hc hpair
  · have hmem : (⟨p, (pairKeys [j]).contains (pairKey p.1 p.2)⟩ : Coverage) ∈
        coverage [p] models (pairKeys [j]) := List.mem_singleton.mpr rfl
    have hsatisfied := (satisfied_iff hmem).mpr ⟨j, List.mem_singleton.mpr rfl, ⟨hleft, hright, hne⟩, hkey⟩
    obtain ⟨k, hk, hconnects⟩ := (hall [j] _ hmem).mp hsatisfied
    rwa [List.mem_singleton.mp hk] at hconnects

/-- Coverage lists the stored pairs in their order, and where there are none every two of the models once,
the smaller id first.  A pair that a join connects is satisfied, and a pair that no other two models share
their key with is satisfied only if a join connects it.  For all joins this is so exactly of the pairs with a
key of their own, and a pair has one if no id holds two colons, begins with one or ends with one. -/
theorem coverage_of_identified (stored joins : List (String × String)) (models : List String) :
    ((stored ≠ [] → (coverage stored models (pairKeys joins)).map (·.pair) = stored) ∧
      (stored = [] → ((coverage stored models (pairKeys joins)).map (·.pair)).Nodup ∧
        ∀ a b, (a, b) ∈ (coverage stored models (pairKeys joins)).map (·.pair) ↔
          a ∈ models ∧ b ∈ models ∧ a < b)) ∧
    (∀ c ∈ coverage stored models (pairKeys joins),
      ((∃ j ∈ joins, Connects j c.pair) → c.satisfied = true) ∧
      (Identified c.pair → (c.satisfied = true ↔ ∃ j ∈ joins, Connects j c.pair))) ∧
    ∀ p : String × String, (Unbroken p.1 ∧ Unbroken p.2 → Identified p) ∧
      (Identified p ↔ ∀ joins, ∀ c ∈ coverage [p] models (pairKeys joins),
        (c.satisfied = true ↔ ∃ j ∈ joins, Connects j c.pair)) := by
  rw [map_pair_coverage]
  refine ⟨⟨fun hsome => ?_, fun hnone => ?_⟩, fun c hc => ?_, fun p => ⟨fun h => ?_, identified_iff p models⟩⟩
  · exact if_neg (mt List.isEmpty_iff.mp hsome)
  · subst hnone
    exact ⟨nodup_inferredPairs models, fun a b => mem_inferredPairs⟩
  · exact ⟨satisfied_of_connects hc, satisfied_iff_connects hc⟩
  · exact identified_of_unbroken h.1 h.2

/-- A join of two models satisfies a pair of two others when the ids hold colons. -/
theorem foreign_join_satisfies :
    coverage [("a", "b::c")] [] (pairKeys [("a::b", "c")]) = [⟨("a", "b::c"), true⟩] ∧
      ¬ ∃ j ∈ [("a::b", "c")], Connects j ("a", "b::c") := by
  decide

example : Unbroken "order:items" ∧ ¬ Unbroken "order::items" ∧ ¬ Unbroken "items:" := by decide

end AdhocReport.Join
