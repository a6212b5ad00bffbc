import AdhocReport.Check.Basic
import AdhocReport.Check.Scalar
set_option autoImplicit false

/-!
# Checks that succeed

A combined check succeeds exactly when its parts do.  What a record writes is read back as soon as
its members are, and a value that was read tells that each of its parts was.  A check whose parts fail
with issues only fails with issues only.
-/

namespace AdhocReport.Check

variable {α β : Type}

@[simp] theorem Checked.under_valid (s : Step) (a : α) : (Checked.valid a).under s = .valid a := rfl

theorem Checked.map_eq_valid {f : α → β} {x : Checked α} {b : β} :
    (f <$> x : Checked β) = .valid b ↔ ∃ a, x = .valid a ∧ f a = b := by
  cases x with
  | valid a =>
    constructor
    · intro h
      cases h
      exact ⟨a, rfl, rfl⟩
    · rintro ⟨_, h, rfl⟩
      cases h
      rfl
  | invalid is => exact ⟨fun h => (nomatch h), fun ⟨_, h, _⟩ => (nomatch h)⟩
  | stopped e => exact ⟨fun h => (nomatch h), fun ⟨_, h, _⟩ => (nomatch h)⟩

theorem Checked.seq_eq_valid {x : Checked (α → β)} {y : Checked α} {b : β} :
    (x <*> y) = Checked.valid b ↔ ∃ f a, x = .valid f ∧ y = .valid a ∧ f a = b := by
  constructor
  · intro h
    cases x with
    | valid f =>
      cases y with
      | valid a => exact ⟨f, a, rfl, rfl, by cases h; rfl⟩
      | invalid is => cases h
      | stopped e => cases h
    | invalid is => cases y <;> cases h
    | stopped e => cases y <;> cases h
  · rintro ⟨f, a, rfl, rfl, rfl⟩
    rfl

theorem Checked.under_eq_valid {s : Step} {x : Checked α} {a : α} :
    x.under s = .valid a ↔ x = .valid a := by
  cases x <;> simp [Checked.under]

theorem Checked.andThen_eq_valid {x : Checked α} {f : α → Checked β} {b : β} :
    x.andThen f = .valid b ↔ ∃ a, x = .valid a ∧ f a = .valid b := by
  cases x <;> simp [Checked.andThen]

theorem Checked.refusing_eq_valid {x : Checked α} {objection : α → Option String} {a : α} :
    x.refusing objection = .valid a ↔ x = .valid a ∧ objection a = none := by
  rw [Checked.refusing, Checked.andThen_eq_valid]
  constructor
  · rintro ⟨b, rfl, h⟩
    cases ho : objection b with
    | none =>
      rw [ho] at h
      cases h
      exact ⟨rfl, ho⟩
    | some text =>
      rw [ho] at h
      cases h
  · rintro ⟨rfl, ho⟩
    exact ⟨a, rfl, by rw [ho]⟩

theorem record_eq_valid {title : String} {known : List String} {build : Members → Checked α} {j : Json}
    {a : α} (h : record title known build j = .valid a) : ∃ ms, j = .obj ms ∧ build ms = .valid a := by
  cases j with
  | obj ms =>
    refine ⟨ms, rfl, ?_⟩
    rw [record] at h
    cases hbuilt : build ms with
    | valid b =>
      rw [hbuilt, Checked.withIssues] at h
      split at h
      · exact h
      · cases h
    | invalid is =>
      rw [hbuilt, Checked.withIssues] at h
      split at h <;> cases h
    | stopped e =>
      rw [hbuilt, Checked.withIssues] at h
      split at h <;> cases h
  | _ => cases h

theorem record_of_known {title : String} {known : List String} {build : Members → Checked α}
    {ms : Members} (h : ∀ m ∈ ms, m.1 ∈ known) : record title known build (.obj ms) = build ms := by
  have hnoneExtra : extraIssues known ms = [] := by
    rw [extraIssues, List.map_eq_nil_iff, List.filter_eq_nil_iff]
    intro m hmember
    simpa using h m hmember
  rw [record, hnoneExtra]
  rfl

theorem required_of_lookup {ms : Members} {key : String} {r : Reader α} {j : Json} {a : α}
    (h : Json.lookup ms key = some j) (hread : r j = .valid a) : required ms key r = .valid a := by
  rw [required, h]
  simp only [hread, Checked.under_valid]

theorem defaulted_of_lookup {ms : Members} {key : String} {default : α} {r : Reader α} {j : Json} {a : α}
    (h : Json.lookup ms key = some j) (hread : r j = .valid a) :
    defaulted ms key default r = .valid a := by
  rw [defaulted, h]
  simp only [hread, Checked.under_valid]

/-- A member that was checked has a value, and the check holds of it. -/
theorem required_eq_valid {ms : Members} {key : String} {r : Reader α} {a : α}
    (h : required ms key r = .valid a) : ∃ j, Json.lookup ms key = some j ∧ r j = .valid a := by
  unfold required at h
  split at h
  · rename_i j hfound
    exact ⟨j, hfound, Checked.under_eq_valid.mp h⟩
  · cases h

/-- A member that may be missing has its default, or a value for which the check holds. -/
theorem defaulted_eq_valid {ms : Members} {key : String} {default : α} {r : Reader α} {a : α}
    (h : defaulted ms key default r = .valid a) :
    a = default ∨ ∃ j, Json.lookup ms key = some j ∧ r j = .valid a := by
  unfold defaulted at h
  split at h
  · rename_i j hfound
    exact .inr ⟨j, hfound, Checked.under_eq_valid.mp h⟩
  · cases h
    exact .inl rfl

theorem nullable_ofText? (t : Option String) : nullable text (Json.ofText? t) = .valid t := by
  cases t <;> rfl

theorem nullable_of_reader {r : Reader α} {j : Json} {a : α} (hsome : j ≠ .null) (hread : r j = .valid a) :
    nullable r j = .valid (some a) := by
  unfold nullable
  split
  · exact absurd rfl hsome
  · rw [hread]
    rfl

theorem nullable_map_getD {r : Reader α} {f : α → Json} (t : Option α)
    (hvalue : ∀ a, t = some a → f a ≠ .null ∧ r (f a) = .valid a) :
    nullable r ((t.map f).getD .null) = .valid t := by
  cases t with
  | none => rfl
  | some a =>
    obtain ⟨hsome, hread⟩ := hvalue a rfl
    exact nullable_of_reader hsome hread

theorem nullable_eq_some {r : Reader α} {j : Json} {a : α} (h : nullable r j = .valid (some a)) :
    r j = .valid a := by
  unfold nullable at h
  split at h
  · cases h
  · obtain ⟨b, hread, hsame⟩ := Checked.map_eq_valid.mp h
    cases hsame
    exact hread

theorem itemsFrom_map {r : Reader α} {f : α → Json} {xs : List α} (n : Nat)
    (h : ∀ x ∈ xs, r (f x) = .valid x) : itemsFrom r n (xs.map f) = .valid xs := by
  induction xs generalizing n with
  | nil => rfl
  | cons x xs ih =>
    have hrest := ih (n + 1) fun y hmember => h y (List.mem_cons_of_mem x hmember)
    simp only [List.map_cons, itemsFrom, h x List.mem_cons_self, hrest]
    rfl

theorem list_map {r : Reader α} {f : α → Json} {xs : List α} (h : ∀ x ∈ xs, r (f x) = .valid x) :
    list r (.arr (xs.map f)) = .valid xs := itemsFrom_map 0 h

theorem mem_of_itemsFrom {r : Reader α} {n : Nat} {js : List Json} {xs : List α}
    (h : itemsFrom r n js = .valid xs) : ∀ x ∈ xs, ∃ j ∈ js, r j = .valid x := by
  induction js generalizing n xs with
  | nil =>
    cases h
    intro x hmember
    cases hmember
  | cons j rest ih =>
    obtain ⟨f, ys, hfirst, hothers, rfl⟩ := Checked.seq_eq_valid.mp h
    obtain ⟨y, hread, rfl⟩ := Checked.map_eq_valid.mp hfirst
    intro x hmember
    rcases List.mem_cons.mp hmember with rfl | hmember
    · exact ⟨j, List.mem_cons_self, Checked.under_eq_valid.mp hread⟩
    · obtain ⟨i, hlater, hread⟩ := ih hothers x hmember
      exact ⟨i, List.mem_cons_of_mem _ hlater, hread⟩

theorem mem_of_list {r : Reader α} {j : Json} {xs : List α} (h : list r j = .valid xs) :
    ∃ items, j = .arr items ∧ ∀ x ∈ xs, ∃ i ∈ items, r i = .valid x := by
  unfold list at h
  split at h
  · exact ⟨_, rfl, mem_of_itemsFrom h⟩
  · cases h

theorem ne_nil_of_nonEmptyList {r : Reader α} {j : Json} {xs : List α} (h : nonEmptyList r j = .valid xs) :
    xs ≠ [] := by
  obtain ⟨items, -, hsome⟩ := Checked.andThen_eq_valid.mp h
  split at hsome
  · cases hsome
  · rename_i hfilled
    cases hsome
    simpa using hfilled

theorem mem_of_defaulted_list {ms : Members} {key : String} {r : Reader α} {xs : List α}
    (h : defaulted ms key [] (list r) = .valid xs) :
    ∀ x ∈ xs, ∃ items, Json.lookup ms key = some (.arr items) ∧ ∃ i ∈ items, r i = .valid x := by
  intro x hmember
  rcases defaulted_eq_valid h with rfl | ⟨j, hfound, hread⟩
  · cases hmember
  · obtain ⟨items, rfl, heach⟩ := mem_of_list hread
    exact ⟨items, hfound, heach x hmember⟩

/-! ## Checks that do not stop -/

/-- The check ends with a value or with issues. -/
def Checked.Settles (x : Checked α) : Prop := ∀ fault, x ≠ .stopped fault

@[simp] theorem Checked.settles_valid (a : α) : (Checked.valid a).Settles := fun _ h => (nomatch h)

@[simp] theorem Checked.settles_invalid (is : List Issue) : (Checked.invalid is : Checked α).Settles :=
  fun _ h => (nomatch h)

@[simp] theorem Checked.settles_fail (kind : IssueKind) : (Checked.fail kind : Checked α).Settles :=
  settles_invalid _

theorem Checked.Settles.map {x : Checked α} (h : x.Settles) (f : α → β) : (f <$> x : Checked β).Settles := by
  cases x with
  | valid a => exact settles_valid _
  | invalid is => exact settles_invalid is
  | stopped fault => exact absurd rfl (h fault)

theorem Checked.Settles.seq {x : Checked (α → β)} {y : Checked α} (hx : x.Settles) (hy : y.Settles) :
    (x <*> y).Settles := by
  cases x with
  | stopped fault => exact absurd rfl (hx fault)
  | valid f =>
    cases y with
    | stopped fault => exact absurd rfl (hy fault)
    | valid a => exact settles_valid _
    | invalid is => exact settles_invalid is
  | invalid is =>
    cases y with
    | stopped fault => exact absurd rfl (hy fault)
    | valid a => exact settles_invalid is
    | invalid js => exact settles_invalid _

theorem Checked.Settles.under {x : Checked α} (h : x.Settles) (s : Step) : (x.under s).Settles := by
  cases x with
  | valid a => exact settles_valid a
  | invalid is => exact settles_invalid _
  | stopped fault => exact absurd rfl (h fault)

theorem Checked.Settles.withIssues {x : Checked α} (h : x.Settles) (more : List Issue) :
    (x.withIssues more).Settles := by
  unfold Checked.withIssues
  split
  · exact h
  · cases x with
    | valid a => exact settles_invalid _
    | invalid is => exact settles_invalid _
    | stopped fault => exact absurd rfl (h fault)

/-- The check ends with a value or with issues, whatever it is given. -/
def Settles (r : Reader α) : Prop := ∀ j, (r j).Settles

theorem settles_required {r : Reader α} (h : Settles r) (ms : Members) (key : String) :
    (required ms key r).Settles := by
  unfold required
  split
  · exact (h _).under _
  · exact (Checked.settles_fail _).under _

theorem settles_defaulted {r : Reader α} (h : Settles r) (ms : Members) (key : String) (default : α) :
    (defaulted ms key default r).Settles := by
  unfold defaulted
  split
  · exact (h _).under _
  · exact Checked.settles_valid default

theorem settles_nullable {r : Reader α} (h : Settles r) : Settles (nullable r) := by
  intro j
  unfold nullable
  split
  · exact Checked.settles_valid none
  · exact (h j).map some

theorem settles_itemsFrom {r : Reader α} (h : Settles r) (n : Nat) (js : List Json) :
    (itemsFrom r n js).Settles := by
  induction js generalizing n with
  | nil => exact Checked.settles_valid []
  | cons j rest ih => exact (((h j).under _).map List.cons).seq (ih (n + 1))

theorem settles_list {r : Reader α} (h : Settles r) : Settles (list r) := by
  intro j
  unfold list
  split
  · exact settles_itemsFrom h 0 _
  · exact Checked.settles_fail _

theorem settles_record {title : String} {known : List String} {build : Members → Checked α}
    (h : ∀ ms, (build ms).Settles) : Settles (record title known build) := by
  intro j
  unfold record
  split
  · exact (h _).withIssues _
  · exact Checked.settles_fail _

theorem settles_object : Settles object := by
  intro j
  unfold object
  split <;> simp

theorem settles_text : Settles text := by
  intro j
  unfold text
  split <;> simp

theorem settles_choice (codes : List (String × α)) : Settles (choice codes) := by
  intro j
  unfold choice
  split
  · split <;> simp
  · simp

@[simp] theorem settles_intOfFloat (x : Float) : (intOfFloat x).Settles := by
  unfold intOfFloat
  split
  · simp
  · split
    · simp
    · split <;> simp

@[simp] theorem settles_truthOfInt (n : Int) : (truthOfInt n).Settles := by
  unfold truthOfInt
  split
  · simp
  · split <;> simp

theorem settles_integer : Settles integer := by
  intro j
  cases j with
  | str s =>
    simp only [integer]
    split <;> simp
  | _ => simp [integer]

theorem settles_truth : Settles truth := by
  intro j
  cases j with
  | int n =>
    simp only [truth]
    split <;> simp
  | float x =>
    simp only [truth]
    split <;> simp
  | str s =>
    simp only [truth]
    split <;> simp
  | _ => simp [truth]

end AdhocReport.Check
