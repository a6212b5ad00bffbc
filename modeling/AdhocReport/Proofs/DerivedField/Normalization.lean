import AdhocReport.Proofs.DerivedField.Analysis
import AdhocReport.Proofs.Expression.Breaking
import AdhocReport.Proofs.Join.Coverage
import Mathlib.Data.List.Sort
set_option autoImplicit false

/-!
# Derived fields: the outcome for a supplied tree

Whatever value a client supplies, one of three things happens.  The value is the record of a tree: then the
tree is returned, with the references that follow from its columns.  It is the record of no tree, and that
is the answer.  Or something in it stops the reader before that is known, and the reader fails.
-/

namespace AdhocReport.DerivedField

open AdhocReport.Expr

/-- What is returned beside a tree follows from its columns: their models in increasing order, for each
model its fields in increasing order, and the pairs of different models, the smaller id first. -/
structure Normalized.Follows (n : Normalized) : Prop where
  models_increasing : n.referencedModels.Pairwise (· < ·)
  mem_models : ∀ m, m ∈ n.referencedModels ↔ ∃ ref ∈ n.tree.columns, ref.model = m
  fields_models : n.referencedFields.map Prod.fst = n.referencedModels
  fields_increasing : ∀ p ∈ n.referencedFields, p.2.Pairwise (· < ·)
  mem_fields : ∀ p ∈ n.referencedFields, ∀ field, field ∈ p.2 ↔ ⟨p.1, field⟩ ∈ n.tree.columns
  pairs_increasing : n.joinDependencies.Pairwise (Prod.Lex (· < ·) (· < ·))
  mem_pairs : ∀ a b, (a, b) ∈ n.joinDependencies ↔
    a ∈ n.referencedModels ∧ b ∈ n.referencedModels ∧ a < b

/-- A tree with its references. -/
def Normalized.ofTree (tree : Expr) : Normalized :=
  ⟨tree, tree.models, tree.fieldsByModel, Join.inferredPairs tree.models⟩

theorem Normalized.follows_ofTree (tree : Expr) : (ofTree tree).Follows where
  models_increasing := Collection.sortedSet_increasing _
  mem_models _ := Expr.mem_models
  fields_models := Expr.map_fst_fieldsByModel tree
  fields_increasing p hp := by
    obtain ⟨m, -, rfl⟩ := List.mem_map.mp hp
    exact Collection.sortedSet_increasing _
  mem_fields _ hp _ := Expr.mem_of_fieldsByModel hp
  pairs_increasing := Join.increasing_inferredPairs _
  mem_pairs _ _ := Join.mem_inferredPairs

/-- Nothing else follows from the columns of a tree. -/
theorem Normalized.Follows.eq_ofTree {n : Normalized} (h : n.Follows) : n = .ofTree n.tree := by
  have hother := follows_ofTree n.tree
  have hmodels : n.referencedModels = n.tree.models :=
    h.models_increasing.eq_of_mem_iff hother.models_increasing fun m =>
      (h.mem_models m).trans (hother.mem_models m).symm
  have hpairs : n.joinDependencies = Join.inferredPairs n.tree.models := by
    refine h.pairs_increasing.eq_of_mem_iff hother.pairs_increasing fun p => ?_
    rw [h.mem_pairs p.1 p.2, hmodels]
    exact (hother.mem_pairs p.1 p.2).symm
  have hfields : n.referencedFields = n.tree.fieldsByModel := by
    rw [Expr.fieldsByModel, ← hmodels, ← h.fields_models, List.map_map]
    refine ((List.map_congr_left fun p hp => ?_).trans (List.map_id _)).symm
    have hmem : p.1 ∈ n.tree.models := by
      rw [← hmodels, ← h.fields_models]
      exact List.mem_map_of_mem hp
    have hlisted := List.mem_map_of_mem (f := fun m =>
      (m, Collection.sortedSet ((n.tree.columns.filter fun c => c.model == m).map (·.field)))) hmem
    refine Prod.ext rfl ?_
    exact (hother.fields_increasing _ hlisted).eq_of_mem_iff (h.fields_increasing p hp) fun field =>
      (hother.mem_fields _ hlisted field).trans (h.mem_fields p hp field).symm
  rw [ofTree, ← hpairs, ← hfields, ← hmodels]

/-! ## Outcomes -/

theorem normalize_eq_some {j : Json} {n : Normalized} :
    normalize j = .ok (some n) ↔ Reads j n.tree ∧ n = .ofTree n.tree := by
  rw [← ofJson_eq_ok_iff, normalize]
  cases ofJson j with
  | ok tree =>
    simp only [Except.ok.injEq, Option.some.injEq]
    constructor
    · rintro rfl
      exact ⟨rfl, rfl⟩
    · rintro ⟨rfl, htree⟩
      exact htree.symm
  | error fault =>
    dsimp only
    split <;> simp

theorem normalize_eq_error {j : Json} {fault : RecordFault} : normalize j = .error fault ↔ Breaks j fault := by
  rw [breaks_iff, normalize]
  cases ofJson j with
  | ok tree => simp
  | error other =>
    dsimp only
    split
    · rename_i hmalformed
      simp only [reduceCtorEq, Except.error.injEq, false_iff, not_and]
      rintro rfl
      rw [hmalformed]
      decide
    · rename_i hfails
      simp only [Except.error.injEq, Bool.not_eq_true] at hfails ⊢
      exact ⟨fun h => ⟨h, h ▸ hfails⟩, fun h => h.1⟩

/-- Every value comes to one of three outcomes.  A reader that nothing stops returns a tree exactly if the
value depicts it, with what follows from its columns, and none exactly if the value depicts no tree; and it
fails exactly if something stops it. -/
theorem normalize_outcome (j : Json) :
    (∀ n, normalize j = .ok (some n) ↔ (∀ fault, ¬Breaks j fault) ∧ Depicts j n.tree ∧ n.Follows) ∧
    (normalize j = .ok none ↔ (∀ fault, ¬Breaks j fault) ∧ ∀ e, ¬Depicts j e) ∧
    (∀ fault, normalize j = .error fault ↔ Breaks j fault) := by
  have hsome (n : Normalized) : normalize j = .ok (some n) ↔
      (∀ fault, ¬Breaks j fault) ∧ Depicts j n.tree ∧ n.Follows := by
    rw [normalize_eq_some, reads_iff, and_assoc]
    refine and_congr_right fun _ => and_congr_right fun _ => ⟨fun h => ?_, Normalized.Follows.eq_ofTree⟩
    rw [h]
    exact Normalized.follows_ofTree n.tree
  refine ⟨hsome, ⟨fun hnone => ?_, ?_⟩, fun _ => normalize_eq_error⟩
  · have hquiet : ∀ fault, ¬Breaks j fault := fun fault hbreaks => by
      rw [normalize_eq_error.mpr hbreaks] at hnone
      cases hnone
    refine ⟨hquiet, fun e hdepicts => ?_⟩
    rw [(hsome (.ofTree e)).mpr ⟨hquiet, hdepicts, Normalized.follows_ofTree e⟩] at hnone
    cases hnone
  · rintro ⟨hquiet, hunread⟩
    match hresult : normalize j with
    | .ok none => rfl
    | .ok (some n) => exact absurd ((hsome n).mp hresult).2.1 (hunread n.tree)
    | .error fault => exact absurd (normalize_eq_error.mp hresult) (hquiet fault)

/-- A list in the place of an operator makes no record of a tree, and an integer of 401 digits makes one: a
reader fails at both. -/
theorem normalize_fails :
    (normalize (.obj [("type", .str "binary"), ("operator", .arr [])]) = .error (.compound "list") ∧
      ∀ e, ¬Depicts (.obj [("type", .str "binary"), ("operator", .arr [])]) e) ∧
    (normalize (Expr.literal (.int (10 ^ 400))).toJson = .error .tooLarge ∧
      Depicts (Expr.literal (.int (10 ^ 400))).toJson (.literal (.int (10 ^ 400)))) := by
  have hlist : Breaks (.obj [("type", .str "binary"), ("operator", .arr [])]) (.compound "list") :=
    .operator List.mem_cons_self rfl (.list [])
  have hlimit (k : ℕ) (h : 400 ≤ k) : Decimal.limit ≤ (((10 : ℤ) ^ k).natAbs : ℚ) := by
    rw [Int.natAbs_pow, Nat.cast_pow, ← zpow_natCast]
    exact Decimal.limit_le_ten_zpow (Int.ofNat_le.mpr h)
  refine ⟨⟨normalize_eq_error.mpr hlist, fun e h => ?_⟩,
    normalize_eq_error.mpr (.tooLarge rfl rfl rfl (hlimit 400 le_rfl)),
    .literal rfl rfl rfl (fun x hx => nomatch hx)⟩
  cases h with
  | binary _ hop _ _ => exact nomatch hop
  | column htype _ _ | literal htype _ _ _ | unary htype _ _ | call htype _ _ _ =>
    exact absurd (Json.str.inj htype) (by decide)

end AdhocReport.DerivedField
