import AdhocReport.Join.Graph
import Mathlib.Data.List.Basic
import Mathlib.Data.List.Nodup
import Mathlib.Algebra.BigOperators.Group.List.Basic
import Mathlib.Algebra.GroupWithZero.Nat
import Mathlib.Logic.Relation
set_option autoImplicit false

/-!
# Joins: components of a selection

Two selected models are linked if a path of joins between selected models leads from one to the other.
The traversal of a selection finds the classes of linked models: a visit returns its queue followed by
what is newly reached, and the components found so far are always closed under joins.  Every model
outside of the first component is without a path to the first model.
-/

namespace AdhocReport.Join

open AdhocReport.Collection

/-- A join between two different selected models. -/
def Qualifies (selected : List String) (j : String × String) : Prop :=
  j.1 ∈ selected ∧ j.2 ∈ selected ∧ j.1 ≠ j.2

instance (selected : List String) (j : String × String) : Decidable (Qualifies selected j) :=
  inferInstanceAs (Decidable (_ ∧ _ ∧ _))

/-- A join leads from one model to the other, in either direction. -/
def Adjacent (selected : List String) (joins : List (String × String)) (m n : String) : Prop :=
  ∃ j ∈ joins, Qualifies selected j ∧ (j = (m, n) ∨ j = (n, m))

/-- A path of joins leads from one model to the other. -/
def Linked (selected : List String) (joins : List (String × String)) : String → String → Prop :=
  Relation.ReflTransGen (Adjacent selected joins)

variable {selected : List String} {joins : List (String × String)} {m n : String}

/-! ## Paths -/

theorem Adjacent.symm (h : Adjacent selected joins m n) : Adjacent selected joins n m := by
  obtain ⟨j, hj, hq, hmn⟩ := h
  exact ⟨j, hj, hq, hmn.symm⟩

theorem Adjacent.mem (h : Adjacent selected joins m n) : n ∈ selected := by
  obtain ⟨j, -, ⟨hl, hr, -⟩, rfl | rfl⟩ := h
  · exact hr
  · exact hl

theorem Linked.symm (h : Linked selected joins m n) : Linked selected joins n m := by
  induction h with
  | refl => exact .refl
  | tail _ hstep ih => exact .head hstep.symm ih

/-- Where a path leads out of a set of models, some join does. -/
theorem Linked.mem_of_closed {closed : List String}
    (hclosed : ∀ a ∈ closed, ∀ b, Adjacent selected joins a b → b ∈ closed)
    (h : Linked selected joins m n) (hm : m ∈ closed) : n ∈ closed := by
  induction h with
  | refl => exact hm
  | tail _ hstep ih => exact hclosed _ ih _ hstep

/-- Which models are selected and which joins there are matters, not how often or in which order. -/
theorem adjacent_congr {selected' : List String} {joins' : List (String × String)}
    (hmodels : ∀ m, m ∈ selected' ↔ m ∈ selected) (hjoins : ∀ j, j ∈ joins' ↔ j ∈ joins) :
    Adjacent selected' joins' = Adjacent selected joins := by
  funext m n
  simp only [Adjacent, Qualifies, hmodels, hjoins]

theorem linked_congr {selected' : List String} {joins' : List (String × String)}
    (hmodels : ∀ m, m ∈ selected' ↔ m ∈ selected) (hjoins : ∀ j, j ∈ joins' ↔ j ∈ joins) :
    Linked selected' joins' = Linked selected joins := by
  unfold Linked
  rw [adjacent_congr hmodels hjoins]

theorem linked_distinct : Linked (distinct selected) joins = Linked selected joins :=
  linked_congr (fun _ => mem_distinct) fun _ => Iff.rfl

/-! ## Edges -/

theorem edges_eq_filter : edges selected joins = joins.filter fun j => decide (Qualifies selected j) := by
  refine List.filter_congr fun j _ => ?_
  rw [Bool.eq_iff_iff, decide_eq_true_eq]
  simp [Qualifies, and_assoc]

theorem mem_edges {j : String × String} : j ∈ edges selected joins ↔ j ∈ joins ∧ Qualifies selected j := by
  simp [edges_eq_filter]

theorem mem_neighbours : n ∈ neighbours (edges selected joins) m ↔ Adjacent selected joins m n := by
  simp only [neighbours, mem_distinct, List.mem_filterMap, mem_edges, Adjacent, and_assoc]
  refine exists_congr fun j => and_congr_right fun _ => and_congr_right fun hq => ?_
  obtain ⟨l, r⟩ := j
  have hne : l ≠ r := hq.2.2
  by_cases hl : l = m
  · subst hl
    simp [hne.symm]
  · by_cases hr : r = m
    · subst hr
      simp [hl]
    · simp [hl, hr]

/-! ## Visits -/

/-- A visit that has seen some models and still has a queue reaches `found` besides. -/
structure Explores (selected : List String) (joins : List (String × String))
    (visited queue found : List String) : Prop where
  nodup : (visited ++ found).Nodup
  mem : ∀ n ∈ found, n ∈ selected
  closed : ∀ m ∈ queue ++ found, ∀ n, Adjacent selected joins m n → n ∈ visited ++ found
  reached : ∀ n ∈ found, ∃ m ∈ queue, Linked selected joins m n

/-- The models that are queued when `m` is taken from the queue. -/
def fresh (es : List (String × String)) (visited : List String) (m : String) : List String :=
  (neighbours es m).filter fun n => !visited.contains n

theorem mem_fresh {visited : List String} :
    n ∈ fresh (edges selected joins) visited m ↔ Adjacent selected joins m n ∧ n ∉ visited := by
  simp [fresh, mem_neighbours]

theorem nodup_append_fresh {es : List (String × String)} {visited : List String} (h : visited.Nodup) :
    (visited ++ fresh es visited m).Nodup := by
  refine List.nodup_append'.mpr ⟨h, (nodup_distinct _).filter _, ?_⟩
  intro n hn hfresh
  simp [fresh, hn] at hfresh

theorem Explores.cons {visited queue found : List String}
    (h : Explores selected joins (visited ++ fresh (edges selected joins) visited m)
      (queue ++ fresh (edges selected joins) visited m) found) :
    Explores selected joins visited (m :: queue) (fresh (edges selected joins) visited m ++ found) := by
  refine ⟨by simpa using h.nodup, fun n hn => ?_, fun a ha b hab => ?_, fun n hn => ?_⟩
  · rcases List.mem_append.mp hn with hn | hn
    · exact (mem_fresh.mp hn).1.mem
    · exact h.mem n hn
  · rcases List.mem_cons.mp ha with rfl | ha
    · -- the neighbours of the model just taken are seen already or queued now
      by_cases hb : b ∈ visited
      · exact List.mem_append_left _ hb
      · exact List.mem_append_right _ (List.mem_append_left _ (mem_fresh.mpr ⟨hab, hb⟩))
    · have hclosed := h.closed a (by simpa using ha) b hab
      simpa using hclosed
  · rcases List.mem_append.mp hn with hn | hn
    · exact ⟨m, by simp, .single (mem_fresh.mp hn).1⟩
    · obtain ⟨a, ha, hpath⟩ := h.reached n hn
      rcases List.mem_append.mp ha with ha | ha
      · exact ⟨a, by simp [ha], hpath⟩
      · exact ⟨m, by simp, .head (mem_fresh.mp ha).1 hpath⟩

/-- The fuel covers the queue and all models not seen: each of them is taken from the queue once. -/
theorem visit_explores (joins : List (String × String)) {fuel : Nat} {visited queue : List String}
    (hnodup : visited.Nodup) (hmem : ∀ m ∈ visited, m ∈ selected)
    (hfuel : queue.length + selected.length ≤ fuel + visited.length) :
    ∃ found, visit (edges selected joins) fuel visited queue = queue ++ found ∧
      Explores selected joins visited queue found := by
  induction fuel generalizing visited queue with
  | zero =>
    have hle : visited.length ≤ selected.length := (List.subperm_of_subset hnodup hmem).length_le
    have hqueue : queue = [] := List.length_eq_zero_iff.mp (by omega)
    subst hqueue
    exact ⟨[], rfl, by simpa using hnodup, by simp, by simp, by simp⟩
  | succ fuel ih =>
    cases queue with
    | nil => exact ⟨[], rfl, by simpa using hnodup, by simp, by simp, by simp⟩
    | cons m queue =>
      have hmem' : ∀ n ∈ visited ++ fresh (edges selected joins) visited m, n ∈ selected := by
        intro n hn
        rcases List.mem_append.mp hn with hn | hn
        · exact hmem n hn
        · exact (mem_fresh.mp hn).1.mem
      have hfuel' : (queue ++ fresh (edges selected joins) visited m).length + selected.length ≤
          fuel + (visited ++ fresh (edges selected joins) visited m).length := by
        simp only [List.length_cons, List.length_append] at hfuel ⊢
        omega
      obtain ⟨found, hvisit, hexplores⟩ := ih (nodup_append_fresh hnodup) hmem' hfuel'
      refine ⟨fresh (edges selected joins) visited m ++ found, ?_, hexplores.cons⟩
      have hstep : visit (edges selected joins) (fuel + 1) visited (m :: queue) =
          m :: visit (edges selected joins) fuel (visited ++ fresh (edges selected joins) visited m)
            (queue ++ fresh (edges selected joins) visited m) := rfl
      rw [hstep, hvisit]
      simp

/-- A set of models that no join leads out of. -/
def Closed (selected : List String) (joins : List (String × String)) (ms : List String) : Prop :=
  ∀ m ∈ ms, ∀ n, Adjacent selected joins m n → n ∈ ms

/-- A visit that begins outside of a closed set keeps out of it and finds a whole class of models. -/
theorem Explores.component {visited found : List String} (hclosed : Closed selected joins visited)
    (h : Explores selected joins (m :: visited) [m] found) :
    ∀ n, n ∈ m :: found ↔ Linked selected joins m n := by
  have hdisjoint : ∀ n ∈ m :: found, n ∉ visited := by
    have hnodup : ((m :: found) ++ visited).Nodup :=
      (List.perm_append_comm.cons m).nodup_iff.mp h.nodup
    exact fun n hn hv => (List.nodup_append'.mp hnodup).2.2 hn hv
  have hstays : Closed selected joins (m :: found) := by
    intro a ha b hab
    have hb := h.closed a ha b hab
    have hb' : b ∉ visited := fun hb => hdisjoint a ha (hclosed b hb a hab.symm)
    simpa [hb'] using hb
  intro n
  constructor
  · intro hn
    rcases List.mem_cons.mp hn with rfl | hn
    · exact .refl
    · obtain ⟨a, ha, hpath⟩ := h.reached n hn
      rwa [List.mem_singleton.mp ha] at hpath
  · intro hpath
    exact hpath.mem_of_closed hstays (by simp)

/-! ## Components -/

/-- What the components found from `rest` on are, when some models were visited before. -/
structure Splits (selected : List String) (joins : List (String × String)) (visited rest : List String)
    (components : List (List String)) : Prop where
  nodup : (visited ++ components.flatten).Nodup
  covers : ∀ m ∈ rest, m ∈ visited ++ components.flatten
  mem : ∀ m ∈ components.flatten, m ∈ selected
  nonempty : [] ∉ components
  linked : ∀ c ∈ components, ∀ m ∈ c, ∀ n, n ∈ c ↔ Linked selected joins m n
  /-- The components come in the order of their first models. -/
  ordered : (components.filterMap List.head?).Sublist rest
  earliest : ∀ c ∈ components, ∀ m, c.head? = some m → ∀ n ∈ c, selected.idxOf m ≤ selected.idxOf n

theorem Splits.skip {visited rest : List String} {components : List (List String)}
    (hm : m ∈ visited) (h : Splits selected joins visited rest components) :
    Splits selected joins visited (m :: rest) components := by
  refine { h with covers := fun n hn => ?_, ordered := h.ordered.cons m }
  rcases List.mem_cons.mp hn with rfl | hn
  · exact List.mem_append_left _ hm
  · exact h.covers n hn

theorem Splits.cons {visited done rest found : List String} {components : List (List String)}
    (hselected : selected = done ++ m :: rest) (hdone : ∀ n ∈ done, n ∈ visited)
    (hclosed : Closed selected joins visited) (hfound : Explores selected joins (m :: visited) [m] found)
    (h : Splits selected joins (visited ++ m :: found) rest components) :
    Splits selected joins visited (m :: rest) ((m :: found) :: components) := by
  have hclass := hfound.component hclosed
  have houtside : ∀ n ∈ m :: found, n ∉ done := by
    intro n hn hd
    have hnodup : (visited ++ m :: found).Nodup := (List.nodup_append'.mp h.nodup).1
    exact (List.nodup_append'.mp hnodup).2.2 (hdone n hd) hn
  refine ⟨by simpa using h.nodup, fun n hn => ?_, fun n hn => ?_, ?_, fun c hc a ha b => ?_, ?_,
    fun c hc a ha b hb => ?_⟩
  · rcases List.mem_cons.mp hn with rfl | hn
    · simp
    · simpa using h.covers n hn
  · rcases List.mem_append.mp hn with hn | hn
    · rcases List.mem_cons.mp hn with rfl | hn
      · simp [hselected]
      · exact hfound.mem n hn
    · exact h.mem n hn
  · simpa using h.nonempty
  · rcases List.mem_cons.mp hc with rfl | hc
    · have hpath := (hclass a).mp ha
      rw [hclass b]
      exact ⟨hpath.symm.trans, hpath.trans⟩
    · exact h.linked c hc a ha b
  · simpa using h.ordered.cons_cons m
  · rcases List.mem_cons.mp hc with rfl | hc
    · obtain rfl : m = a := Option.some.inj ha
      rw [hselected, List.idxOf_append_of_notMem (houtside m (by simp)),
        List.idxOf_append_of_notMem (houtside b hb)]
      simp
    · exact h.earliest c hc a ha b hb

theorem componentsFrom_splits {count : Nat} {visited rest : List String} (done : List String)
    (hcount : selected.length ≤ count) (hselected : selected = done ++ rest)
    (hdone : ∀ n ∈ done, n ∈ visited) (hnodup : visited.Nodup) (hmem : ∀ n ∈ visited, n ∈ selected)
    (hclosed : Closed selected joins visited) :
    Splits selected joins visited rest (componentsFrom (edges selected joins) count visited rest) := by
  induction rest generalizing visited done with
  | nil => exact ⟨by simpa [componentsFrom] using hnodup, by simp, by simp [componentsFrom],
      by simp [componentsFrom], by simp [componentsFrom], by simp [componentsFrom],
      by simp [componentsFrom]⟩
  | cons m rest ih =>
    have hnext : selected = (done ++ [m]) ++ rest := by simpa using hselected
    by_cases hm : m ∈ visited
    · have hskip : componentsFrom (edges selected joins) count visited (m :: rest) =
          componentsFrom (edges selected joins) count visited rest := by
        simp [componentsFrom, hm]
      rw [hskip]
      refine (ih (done ++ [m]) hnext (fun n hn => ?_) hnodup hmem hclosed).skip hm
      rcases List.mem_append.mp hn with hn | hn
      · exact hdone n hn
      · rwa [List.mem_singleton.mp hn]
    · have hmem' : ∀ n ∈ m :: visited, n ∈ selected := by
        intro n hn
        rcases List.mem_cons.mp hn with rfl | hn
        · simp [hselected]
        · exact hmem n hn
      have hfuel : [m].length + selected.length ≤ count + (m :: visited).length := by
        simp only [List.length_cons, List.length_nil]
        omega
      obtain ⟨found, hvisit, hfound⟩ := visit_explores joins (hnodup.cons hm) hmem' hfuel
      have hstep : componentsFrom (edges selected joins) count visited (m :: rest) =
          (m :: found) ::
            componentsFrom (edges selected joins) count (visited ++ m :: found) rest := by
        simp [componentsFrom, hm, hvisit]
      rw [hstep]
      refine .cons hselected hdone hclosed hfound (ih (done ++ [m]) hnext ?_ ?_ ?_ ?_)
      · intro n hn
        rcases List.mem_append.mp hn with hn | hn
        · exact List.mem_append_left _ (hdone n hn)
        · simp [List.mem_singleton.mp hn]
      · exact List.perm_middle.nodup_iff.mpr hfound.nodup
      · intro n hn
        rcases List.mem_append.mp hn with hn | hn
        · exact hmem n hn
        · rcases List.mem_cons.mp hn with rfl | hn
          · simp [hselected]
          · exact hfound.mem n hn
      · intro a ha b hab
        rcases List.mem_append.mp ha with ha | ha
        · exact List.mem_append_left _ (hclosed a ha b hab)
        · have hb := hfound.closed a ha b hab
          exact List.perm_middle.mem_iff.mpr hb

/-! ## Degrees -/

/-- A join has one of its sides at each of two different models. -/
theorem countP_touches {models : List String} (hnodup : models.Nodup) {j : String × String}
    (hj : Qualifies models j) : models.countP (fun m => j.1 == m || j.2 == m) = 2 := by
  obtain ⟨hl, hr, hne⟩ := hj
  have hsplit : ∀ ms : List String,
      ms.countP (fun m => j.1 == m || j.2 == m) = ms.count j.1 + ms.count j.2 := by
    intro ms
    induction ms with
    | nil => rfl
    | cons m ms ih =>
      rw [List.countP_cons, ih, List.count_cons, List.count_cons]
      by_cases h1 : j.1 = m
      · have h2 : j.2 ≠ m := fun h2 => hne (h1.trans h2.symm)
        simp [h1, h2.symm]
        omega
      · by_cases h2 : j.2 = m
        · simp [h2, Ne.symm h1]
          omega
        · simp [Ne.symm h1, Ne.symm h2, h1, h2]
  rw [hsplit, List.count_eq_one_of_mem hnodup hl, List.count_eq_one_of_mem hnodup hr]

theorem degree_eq_countP (es : List (String × String)) :
    degree es = fun m => es.countP fun j => j.1 == m || j.2 == m := by
  funext m
  rw [degree, List.countP_eq_length_filter]

theorem degree_edges : degree (edges selected joins) m =
    joins.countP fun j => decide (Qualifies selected j ∧ (j.1 = m ∨ j.2 = m)) := by
  simp only [degree_eq_countP]
  rw [edges_eq_filter, List.countP_filter]
  refine List.countP_congr fun j _ => ?_
  simp [and_comm]

theorem sum_indicator (p : String → Bool) (models : List String) :
    (models.map fun m => if p m then 1 else 0).sum = models.countP p := by
  induction models with
  | nil => rfl
  | cons m models ih => rw [List.map_cons, List.sum_cons, ih, List.countP_cons, Nat.add_comm]

/-- Every join is counted at both of its sides. -/
theorem sum_degree {models : List String} (hnodup : models.Nodup) {es : List (String × String)}
    (h : ∀ j ∈ es, Qualifies models j) : (models.map (degree es)).sum = 2 * es.length := by
  rw [degree_eq_countP]
  induction es with
  | nil => simp
  | cons j es ih =>
    have hj := countP_touches hnodup (h j (by simp))
    have hrest := ih fun k hk => h k (by simp [hk])
    simp only [List.countP_cons]
    rw [List.sum_map_add, hrest, sum_indicator, hj, List.length_cons]
    omega

/-! ## The analysis -/

theorem analyze_splits (models : List String) (joins : List (String × String)) :
    Splits (distinct models) joins [] (distinct models) (analyze models joins).components :=
  componentsFrom_splits [] (Nat.le_refl _) rfl (by simp) (by simp) (by simp) (by simp [Closed])

/-- The first component is that of the first model. -/
theorem mem_primary {models : List String} {first : String} (h : models.head? = some first) :
    n ∈ (analyze models joins).components.headD [] ↔ Linked models joins first n := by
  obtain ⟨rest, rfl⟩ := List.head?_eq_some_iff.mp h
  obtain ⟨found, components, hfirst⟩ :
      ∃ found components, (analyze (first :: rest) joins).components = (first :: found) :: components :=
    ⟨_, _, rfl⟩
  have hlinked := (analyze_splits (first :: rest) joins).linked
  rw [hfirst] at hlinked ⊢
  rw [← linked_distinct]
  exact hlinked _ (by simp) first (by simp) n

theorem mem_disconnected {models : List String} {first : String} (h : models.head? = some first) :
    m ∈ (analyze models joins).disconnected ↔ m ∈ models ∧ ¬ Linked models joins first m := by
  rw [← mem_primary h]
  simp [analyze, mem_distinct]

theorem qualifies_distinct (models : List String) {j : String × String} :
    Qualifies (distinct models) j ↔ Qualifies models j := by
  simp only [Qualifies, mem_distinct]

/-- The components of a selection are its classes of linked models.  They are listed in the order of
their earliest models, and each begins with its own.  The disconnected models are those without a path
to the first model, in selection order; and the degree of a model counts the joins that touch it, so
that each join is counted twice. -/
theorem analyze_classes (models : List String) (joins : List (String × String)) :
    ((analyze models joins).components.flatten.Perm (distinct models) ∧
      [] ∉ (analyze models joins).components ∧
      ∀ c ∈ (analyze models joins).components, ∀ m ∈ c, ∀ n, n ∈ c ↔ Linked models joins m n) ∧
    (((analyze models joins).components.filterMap List.head?).Sublist (distinct models) ∧
      ∀ c ∈ (analyze models joins).components, ∀ m, c.head? = some m →
        ∀ n ∈ c, (distinct models).idxOf m ≤ (distinct models).idxOf n) ∧
    ((analyze models joins).disconnected.Sublist (distinct models) ∧
      ∀ first, models.head? = some first →
        ∀ m, m ∈ (analyze models joins).disconnected ↔ m ∈ models ∧ ¬ Linked models joins first m) ∧
    (analyze models joins).degrees = (distinct models).map (fun m =>
      (m, joins.countP fun j => decide (Qualifies models j ∧ (j.1 = m ∨ j.2 = m)))) ∧
    ((analyze models joins).degrees.map (·.2)).sum =
      2 * joins.countP fun j => decide (Qualifies models j) := by
  have hsplits := analyze_splits models joins
  have hnodup := nodup_distinct models
  refine ⟨⟨?_, hsplits.nonempty, ?_⟩, ⟨hsplits.ordered, hsplits.earliest⟩,
    ⟨List.filter_sublist, fun first h m => mem_disconnected h⟩, ?_, ?_⟩
  · refine (List.perm_ext_iff_of_nodup (by simpa using hsplits.nodup) hnodup).mpr fun m => ?_
    exact ⟨hsplits.mem m, fun hm => by simpa using hsplits.covers m hm⟩
  · rw [← linked_distinct]
    exact hsplits.linked
  · simp only [← qualifies_distinct models, ← degree_edges]
    rfl
  · simp only [← qualifies_distinct models]
    rw [List.countP_eq_length_filter, ← edges_eq_filter,
      ← sum_degree hnodup fun j hj => (mem_edges.mp hj).2]
    simp [analyze, Function.comp_def]

/-- A join of a model with itself and one to a model that is not selected link nothing, and two
parallel joins count twice. -/
theorem analyze_classes_parallel :
    (analyze ["b", "a", "b", "c"] [("a", "c"), ("c", "a"), ("b", "b"), ("b", "x")]).components =
        [["b"], ["a", "c"]] ∧
      Linked ["b", "a", "b", "c"] [("a", "c"), ("c", "a"), ("b", "b"), ("b", "x")] "a" "c" ∧
      ¬ Linked ["b", "a", "b", "c"] [("a", "c"), ("c", "a"), ("b", "b"), ("b", "x")] "b" "c" ∧
      (analyze ["b", "a", "b", "c"] [("a", "c"), ("c", "a"), ("b", "b"), ("b", "x")]).degrees =
        [("b", 0), ("a", 2), ("c", 2)] := by
  obtain ⟨⟨-, -, hlinked⟩, -, ⟨-, hdisconnected⟩, hdegrees, -⟩ :=
    analyze_classes ["b", "a", "b", "c"] [("a", "c"), ("c", "a"), ("b", "b"), ("b", "x")]
  refine ⟨by decide, ?_, ?_, hdegrees.trans (by decide)⟩
  · exact (hlinked ["a", "c"] (by decide) "a" (by decide) "c").mp (by decide)
  · exact ((hdisconnected "b" rfl "c").mp (by decide)).2

end AdhocReport.Join
