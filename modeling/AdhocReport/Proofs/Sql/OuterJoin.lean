import AdhocReport.Proofs.Sql.Source
set_option autoImplicit false

/-!
# The two sides of a join

An equality holds of the same rows when its sides are swapped, so that swapping them anywhere in a source
leaves its rows.  The rows of two tables are, for every kind of join, the pairs of records that match and
those records of the sides it keeps that match none; read in this way no side comes first.
-/

namespace AdhocReport.Sql

open AdhocReport.Query

/-! ## Equalities -/

theorem Value.compareFloats_eq {x y : Float} : compareFloats x y = .eq ↔ ¬x < y ∧ ¬y < x := by
  unfold compareFloats
  split
  · simp [*]
  · split <;> simp [*]

theorem Value.compareTexts_eq {s t : String} : compareTexts s t = .eq ↔ ¬s < t ∧ ¬t < s := by
  unfold compareTexts
  split
  · simp [*]
  · split <;> simp [*]

theorem Value.order_eq_comm (a b : Value) : a.order b = .eq ↔ b.order a = .eq := by
  cases a with
  | null => cases b <;> simp [order]
  | int m =>
    cases b with
    | int n =>
      rw [order, order, compare_eq_iff_eq, compare_eq_iff_eq]
      exact eq_comm
    | real y => simp [order]
    | _ => simp [order]
  | real x =>
    cases b with
    | int n => simp [order]
    | real y => simp only [order, compareFloats_eq, and_comm]
    | _ => simp [order]
  | text s =>
    cases b with
    | text t => simp only [order, compareTexts_eq, and_comm]
    | _ => simp [order]

theorem valuesCompare_eq_comm (a b : Value) : valuesCompare .eq a b = valuesCompare .eq b a := by
  have heq (o : Ordering) : comparatorHolds .eq o = (o == .eq) := by cases o <;> rfl
  unfold valuesCompare Value.compare?
  rw [Bool.or_comm]
  split_ifs
  · rfl
  · dsimp only
    rw [heq, heq, Bool.eq_iff_iff, beq_iff_eq, beq_iff_eq]
    exact a.order_eq_comm b

/-- The equality with its sides swapped. -/
def Equality.swap (e : Equality) : Equality := ⟨e.right, e.left⟩

theorem Equality.holds_swap (e : Equality) (r : Row) : e.swap.holds r = e.holds r := by
  unfold Equality.holds columnCompare Equality.swap
  rw [valuesCompare_eq_comm, Bool.and_comm]

/-! ## Sources -/

/-- The sources join the same tables in the same way, over equalities that hold of the same rows. -/
inductive Source.Alike : Source → Source → Prop
  | table (model : String) (table : Schema.Table) : Alike (.table model table) (.table model table)
  | join {kind : JoinKind} {l l' r r' : Source} {on on' : Equality} (hleft : Alike l l') (hright : Alike r r')
      (hsame : ∀ row, on'.holds row = on.holds row) : Alike (.join kind l r on) (.join kind l' r' on')

namespace Source.Alike

variable {source source' : Source}

theorem models_eq (h : Alike source source') : source'.models = source.models := by
  induction h with
  | table => rfl
  | join _ _ _ ihl ihr => rw [models, models, ihl, ihr]

theorem rows_eq (h : Alike source source') (content : Content) :
    source'.rows content = source.rows content := by
  induction h with
  | table => rfl
  | join _ hr hsame ihl ihr => rw [rows, rows, hr.models_eq, ihl, ihr, funext hsame]

end Source.Alike

/-! ## Two tables -/

/-- The row of one record of each of two models. -/
def Row.pair (m n : String) (a b : Record) : Row := Row.merge [n] (Row.single m a) (Row.single n b)

theorem Row.pair_comm {m n : String} (h : m ≠ n) (a b : Record) : Row.pair n m b a = Row.pair m n a b := by
  funext k
  by_cases hm : k = m
  · subst hm
    simp [pair, merge, single, h]
  · by_cases hn : k = n
    · subst hn
      simp [pair, merge, single, hm]
    · simp [pair, merge, single, hm, hn]

/-- The pairs of records of two models. -/
def pairs (m n : String) (as bs : List Record) : Multiset Row :=
  (as : Multiset Record).bind fun a => (bs : Multiset Record).map (Row.pair m n a)

theorem pairs_comm {m n : String} (h : m ≠ n) (as bs : List Record) : pairs n m bs as = pairs m n as bs := by
  unfold pairs
  rw [Multiset.bind_map_comm]
  simp only [Row.pair_comm h]

/-- The rows of those records of a model that match no record of another model. -/
def unmatched (m n : String) (on : Row → Prop) [DecidablePred on] (as bs : List Record) : Multiset Row :=
  ((as : Multiset Record).filter fun a => ∀ b ∈ bs, ¬on (Row.pair m n a b)).map (Row.single m)

theorem unmatched_congr {m n : String} {on on' : Row → Prop} [DecidablePred on] [DecidablePred on']
    (h : ∀ r, on r ↔ on' r) (as bs : List Record) : unmatched m n on as bs = unmatched m n on' as bs := by
  unfold unmatched
  simp only [h]

variable {m n : String} {on : Row → Bool}

theorem matched_single (a : Record) (bs : List Record) :
    matched [n] on (Row.single m a) (bs.map (Row.single n)) = (bs.map (Row.pair m n a)).filter on := by
  rw [matched, List.map_map]
  rfl

theorem inner_rows (as bs : List Record) :
    (joinRows .inner [n] on (as.map (Row.single m)) (bs.map (Row.single n)) : Multiset Row) =
      (pairs m n as bs).filter fun r => on r = true := by
  rw [joinRows, pairs, Multiset.filter_bind, List.flatMap_map, ← Multiset.coe_bind]
  simp only [matched_single, Multiset.map_coe, Multiset.filter_coe, Bool.decide_eq_true]

/-- What a left join makes of one record: its matches, or itself if it has none. -/
theorem kept_rows (a : Record) (bs : List Record) :
    ((if (matched [n] on (Row.single m a) (bs.map (Row.single n))).isEmpty then [Row.single m a]
      else matched [n] on (Row.single m a) (bs.map (Row.single n)) : List Row) : Multiset Row) =
      (((bs : Multiset Record).map (Row.pair m n a)).filter fun r => on r = true) +
        if ∀ b ∈ bs, ¬on (Row.pair m n a b) = true then {Row.single m a} else 0 := by
  have hfound : (((bs : Multiset Record).map (Row.pair m n a)).filter fun r => on r = true) =
      (matched [n] on (Row.single m a) (bs.map (Row.single n)) : List Row) := by
    rw [matched_single, Multiset.map_coe, Multiset.filter_coe]
    simp only [Bool.decide_eq_true]
  have hnone : (matched [n] on (Row.single m a) (bs.map (Row.single n))).isEmpty = true ↔
      ∀ b ∈ bs, ¬on (Row.pair m n a b) = true := by
    rw [matched_single, List.isEmpty_iff, List.filter_eq_nil_iff]
    simp
  rw [hfound]
  by_cases hempty : ∀ b ∈ bs, ¬on (Row.pair m n a b) = true
  · rw [if_pos (hnone.mpr hempty), if_pos hempty, List.isEmpty_iff.mp (hnone.mpr hempty)]
    rfl
  · rw [if_neg (fun h => hempty (hnone.mp h)), if_neg hempty, add_zero]

theorem left_rows (as bs : List Record) :
    (joinRows .left [n] on (as.map (Row.single m)) (bs.map (Row.single n)) : Multiset Row) =
      ((pairs m n as bs).filter fun r => on r = true) + unmatched m n (fun r => on r = true) as bs := by
  induction as with
  | nil => rfl
  | cons a as ih =>
    have hpairs : pairs m n (a :: as) bs = (bs : Multiset Record).map (Row.pair m n a) + pairs m n as bs := by
      rw [pairs, ← Multiset.cons_coe, Multiset.cons_bind, pairs]
    have hunmatched : unmatched m n (fun r => on r = true) (a :: as) bs =
        (if ∀ b ∈ bs, ¬on (Row.pair m n a b) = true then {Row.single m a} else 0) +
          unmatched m n (fun r => on r = true) as bs := by
      unfold unmatched
      rw [← Multiset.cons_coe, Multiset.filter_cons, Multiset.map_add]
      congr 1
      split_ifs <;> rfl
    have hrows : joinRows .left [n] on ((a :: as).map (Row.single m)) (bs.map (Row.single n)) =
        (if (matched [n] on (Row.single m a) (bs.map (Row.single n))).isEmpty then [Row.single m a]
          else matched [n] on (Row.single m a) (bs.map (Row.single n))) ++
          joinRows .left [n] on (as.map (Row.single m)) (bs.map (Row.single n)) := rfl
    rw [hrows, ← Multiset.coe_add, ih, kept_rows, hpairs, hunmatched, Multiset.filter_add]
    exact add_add_add_comm ..

theorem full_rows (as bs : List Record) (h : m ≠ n) :
    (joinRows .full [n] on (as.map (Row.single m)) (bs.map (Row.single n)) : Multiset Row) =
      ((pairs m n as bs).filter fun r => on r = true) + unmatched m n (fun r => on r = true) as bs +
        unmatched n m (fun r => on r = true) bs as := by
  have hrest : (((bs.map (Row.single n)).filter fun b =>
      !(as.map (Row.single m)).any fun a => on (Row.merge [n] a b) : List Row) : Multiset Row) =
        unmatched n m (fun r => on r = true) bs as := by
    unfold unmatched
    rw [Multiset.filter_coe, Multiset.map_coe, List.filter_map]
    congr 2
    refine List.filter_congr fun b _ => ?_
    have hpair (a : Record) : Row.merge [n] (Row.single m a) (Row.single n b) = Row.pair n m b a :=
      (Row.pair_comm h a b).symm
    rw [Bool.eq_iff_iff, decide_eq_true_eq]
    simp [hpair]
  rw [← left_rows, ← hrest, Multiset.coe_add]
  rfl

end AdhocReport.Sql
