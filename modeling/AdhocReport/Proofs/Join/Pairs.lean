import AdhocReport.Join.Pairs
import AdhocReport.Proofs.Collection.Sorting
import Mathlib.Data.Nat.Choose.Basic
import Mathlib.Data.Sym.Sym2
set_option autoImplicit false

/-!
# Joins: inferred pairs

The models of an expression are sorted and freed of repeats before each is paired with the later ones, so
that the pairs depend on nothing but the set of the models: every two of them make one pair, and the pairs
come in lexicographic order.  A list in that order is determined by its members.  So the pairs of some of the
models are found among those of all of them, in the same order, and a further model brings in its own pairs
only.
-/

namespace AdhocReport.Join

/-! ## Each entry with each later one -/

theorem mem_pairsInOrder {models : List String} (h : models.Pairwise (· < ·)) {a b : String} :
    (a, b) ∈ pairsInOrder models ↔ a ∈ models ∧ b ∈ models ∧ a < b := by
  induction h with
  | nil => simp [pairsInOrder]
  | @cons m models hm _ ih =>
    simp only [pairsInOrder, List.mem_append, List.mem_map, Prod.mk.injEq, ih, List.mem_cons]
    constructor
    · rintro (⟨other, hother, rfl, rfl⟩ | ⟨ha, hb, hab⟩)
      · exact ⟨.inl rfl, .inr hother, hm other hother⟩
      · exact ⟨.inr ha, .inr hb, hab⟩
    · rintro ⟨rfl | ha, rfl | hb, hab⟩
      · exact absurd hab (String.lt_irrefl _)
      · exact .inl ⟨b, hb, rfl, rfl⟩
      · exact absurd (hm a ha) (String.lt_asymm hab)
      · exact .inr ⟨ha, hb, hab⟩

/-- The pairs come in the order of their first ids, and pairs with one first id in the order of their second. -/
theorem increasing_pairsInOrder {models : List String} (h : models.Pairwise (· < ·)) :
    (pairsInOrder models).Pairwise (Prod.Lex (· < ·) (· < ·)) := by
  induction h with
  | nil => exact .nil
  | @cons m models hm hmodels ih =>
    refine List.pairwise_append.mpr ⟨?_, ih, fun p hfirst q hrest => ?_⟩
    · exact List.pairwise_map.mpr (hmodels.imp fun hlt => .right _ hlt)
    · obtain ⟨other, -, rfl⟩ := List.mem_map.mp hfirst
      exact .left _ _ (hm q.1 ((mem_pairsInOrder hmodels).mp hrest).1)

/-- Two entries are chosen in as many ways as there are pairs. -/
theorem length_pairsInOrder (models : List String) : (pairsInOrder models).length = models.length.choose 2 := by
  induction models with
  | nil => rfl
  | cons m models ih =>
    rw [pairsInOrder, List.length_append, List.length_map, ih, List.length_cons, Nat.choose_succ_succ,
      Nat.choose_one_right]

/-! ## The pairs of a set of models -/

/-- The inferred pairs are all pairs of different models, the smaller id first. -/
theorem mem_inferredPairs {models : List String} {a b : String} :
    (a, b) ∈ inferredPairs models ↔ a ∈ models ∧ b ∈ models ∧ a < b := by
  rw [inferredPairs, mem_pairsInOrder (Collection.sortedSet_increasing models), Collection.mem_sortedSet,
    Collection.mem_sortedSet]

theorem increasing_inferredPairs (models : List String) :
    (inferredPairs models).Pairwise (Prod.Lex (· < ·) (· < ·)) :=
  increasing_pairsInOrder (Collection.sortedSet_increasing models)

theorem nodup_inferredPairs (models : List String) : (inferredPairs models).Nodup :=
  (increasing_inferredPairs models).nodup

theorem inferredPairs_congr {models others : List String} (h : ∀ m, m ∈ others ↔ m ∈ models) :
    inferredPairs others = inferredPairs models := by
  rw [inferredPairs, inferredPairs, Collection.sortedSet_congr h]

theorem length_inferredPairs (models : List String) :
    (inferredPairs models).length = models.toFinset.card.choose 2 := by
  rw [inferredPairs, length_pairsInOrder, Collection.length_sortedSet]

/-- Pairs in lexicographic order are the inferred ones if they have the same members. -/
theorem eq_inferredPairs {ps : List (String × String)} {models : List String}
    (hps : ps.Pairwise (Prod.Lex (· < ·) (· < ·)))
    (hmem : ∀ a b, (a, b) ∈ ps ↔ a ∈ models ∧ b ∈ models ∧ a < b) : ps = inferredPairs models := by
  refine hps.eq_of_mem_iff (increasing_inferredPairs models) fun p => ?_
  rw [hmem p.1 p.2, mem_inferredPairs]

/-- The pairs of some of the models are found among the pairs of all of them, in the same order. -/
theorem filter_inferredPairs (keep : String → Bool) (models : List String) :
    ((inferredPairs models).filter fun p => keep p.1 && keep p.2) = inferredPairs (models.filter keep) := by
  refine eq_inferredPairs ((increasing_inferredPairs models).filter _) fun a b => ?_
  rw [List.mem_filter, mem_inferredPairs, List.mem_filter, List.mem_filter, Bool.and_eq_true]
  tauto

/-- Two different models make one pair. -/
theorem count_inferredPairs {models : List String} {a b : String} (ha : a ∈ models) (hb : b ∈ models)
    (hne : a ≠ b) : ((inferredPairs models).map fun p => s(p.1, p.2)).count s(a, b) = 1 := by
  have hnodup : ((inferredPairs models).map fun p => s(p.1, p.2)).Nodup := by
    refine List.Nodup.map_on (fun p hp q hq heq => ?_) (nodup_inferredPairs models)
    obtain ⟨-, -, hp⟩ := mem_inferredPairs.mp hp
    obtain ⟨-, -, hq⟩ := mem_inferredPairs.mp hq
    rcases Sym2.eq_iff.mp heq with ⟨hfirst, hsecond⟩ | ⟨hfirst, hsecond⟩
    · exact Prod.ext hfirst hsecond
    · rw [hfirst, hsecond] at hp
      exact absurd hp (String.lt_asymm hq)
  refine List.count_eq_one_of_mem hnodup (List.mem_map.mpr ?_)
  rcases lt_or_gt_of_ne hne with hlt | hlt
  · exact ⟨(a, b), mem_inferredPairs.mpr ⟨ha, hb, hlt⟩, rfl⟩
  · exact ⟨(b, a), mem_inferredPairs.mpr ⟨hb, ha, hlt⟩, Sym2.eq_swap⟩

/-! ## A further model -/

section

variable {m : String} {models : List String}

/-- Without the pairs of a further model the others are left, in their order. -/
theorem filter_inferredPairs_cons (h : m ∉ models) :
    ((inferredPairs (m :: models)).filter fun p => p.1 != m && p.2 != m) = inferredPairs models := by
  have hmodels : models.filter (· != m) = models :=
    List.filter_eq_self.mpr fun x hx => bne_iff_ne.mpr fun heq => h (heq ▸ hx)
  rw [filter_inferredPairs (· != m), List.filter_cons_of_neg (by simp), hmodels]

theorem length_inferredPairs_cons (h : m ∉ models) :
    (inferredPairs (m :: models)).length = (inferredPairs models).length + models.toFinset.card := by
  have hcard : (m :: models).toFinset.card = models.toFinset.card + 1 := by
    rw [List.toFinset_cons, Finset.card_insert_of_notMem (by rwa [List.mem_toFinset])]
  rw [length_inferredPairs, length_inferredPairs, hcard, Nat.choose_succ_succ, Nat.choose_one_right, Nat.add_comm]

/-- A further model is in one pair with each of the others. -/
theorem countP_inferredPairs_cons (h : m ∉ models) :
    (inferredPairs (m :: models)).countP (fun p => p.1 == m || p.2 == m) = models.toFinset.card := by
  have hsplit := List.length_eq_countP_add_countP (l := inferredPairs (m :: models)) fun p => p.1 == m || p.2 == m
  have hothers : (inferredPairs (m :: models)).countP (fun p => !(p.1 == m || p.2 == m)) =
      (inferredPairs models).length := by
    rw [List.countP_eq_length_filter, ← filter_inferredPairs_cons h]
    simp only [Bool.not_or, bne]
  have hlength := length_inferredPairs_cons h
  simp only [Bool.not_eq_true, Bool.decide_eq_false] at hsplit
  omega

end

/-- The inferred pairs depend on the set of the models only.  They are the pairs of a smaller and a larger
model, in lexicographic order, so that every two models make one pair, and `n` models make `n * (n - 1) / 2`.
A further model adds a pair with each of the `n` models, and the other pairs keep their order. -/
theorem inferredPairs_of_set (models : List String) :
    (∀ others : List String, (∀ m, m ∈ others ↔ m ∈ models) → inferredPairs others = inferredPairs models) ∧
    (∀ a b, (a, b) ∈ inferredPairs models ↔ a ∈ models ∧ b ∈ models ∧ a < b) ∧
    (∀ a ∈ models, ∀ b ∈ models, a ≠ b → ((inferredPairs models).map fun p => s(p.1, p.2)).count s(a, b) = 1) ∧
    (inferredPairs models).Pairwise (Prod.Lex (· < ·) (· < ·)) ∧
    (inferredPairs models).length = models.toFinset.card * (models.toFinset.card - 1) / 2 ∧
    ∀ m ∉ models,
      (inferredPairs (m :: models)).length = (inferredPairs models).length + models.toFinset.card ∧
      (inferredPairs (m :: models)).countP (fun p => p.1 == m || p.2 == m) = models.toFinset.card ∧
      ((inferredPairs (m :: models)).filter fun p => p.1 != m && p.2 != m) = inferredPairs models := by
  refine ⟨fun others h => inferredPairs_congr h, fun a b => mem_inferredPairs,
    fun a ha b hb => count_inferredPairs ha hb,
    increasing_inferredPairs models, ?_, fun m hm => ?_⟩
  · rw [length_inferredPairs, Nat.choose_two_right]
  · exact ⟨length_inferredPairs_cons hm, countP_inferredPairs_cons hm, filter_inferredPairs_cons hm⟩

/-- Orders and refunds, given with a repeat and out of order, and products as a third model. -/
theorem inferredPairs_of_set_products :
    let models := ["refunds", "orders", "refunds"]
    ((∀ m, m ∈ ["orders", "refunds"] ↔ m ∈ models) ∧ inferredPairs ["orders", "refunds"] = inferredPairs models) ∧
    ("refunds" ∈ models ∧ "orders" ∈ models ∧ "refunds" ≠ "orders" ∧
      ((inferredPairs models).map fun p => s(p.1, p.2)).count s("refunds", "orders") = 1) ∧
    (inferredPairs models).length = 2 * (2 - 1) / 2 ∧
    ("products" ∉ models ∧
      (inferredPairs ("products" :: models)).length = (inferredPairs models).length + 2 ∧
      (inferredPairs ("products" :: models)).countP (fun p => p.1 == "products" || p.2 == "products") = 2 ∧
      ((inferredPairs ("products" :: models)).filter fun p => p.1 != "products" && p.2 != "products") =
        inferredPairs models) := by
  intro models
  have hset : ∀ m, m ∈ ["orders", "refunds"] ↔ m ∈ models := by
    intro m
    simp only [models, List.mem_cons, List.not_mem_nil, or_false]
    tauto
  have hrefunds : "refunds" ∈ models := by decide
  have horders : "orders" ∈ models := by decide
  have hproducts : "products" ∉ models := by decide
  obtain ⟨hothers, -, hcount, -, hlength, hmore⟩ := inferredPairs_of_set models
  exact ⟨⟨hset, hothers _ hset⟩, ⟨hrefunds, horders, by decide, hcount _ hrefunds _ horders (by decide)⟩, hlength,
    hproducts, hmore _ hproducts⟩

end AdhocReport.Join
