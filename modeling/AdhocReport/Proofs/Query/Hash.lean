import AdhocReport.Proofs.Expression.Variant
import AdhocReport.Proofs.Query.Record
set_option autoImplicit false

/-!
# The hash of a configuration

A configuration is hashed as the canonical text of its record.  The only part of a record that is as it
was handed in, with its members in any order, is the tree of a derived column; everything else has its
keys from the type.  So two configurations share a hash exactly when their records are equal as JSON, as
long as their two texts do not collide.
-/

namespace AdhocReport

namespace Json

theorem keyed_ofText? (s : Option String) : (ofText? s).Keyed := by
  cases s with
  | none => exact .null
  | some s => exact .str s

theorem keyed_arr_map {α : Type} {f : α → Json} {xs : List α} (h : ∀ x ∈ xs, (f x).Keyed) :
    (Json.arr (xs.map f)).Keyed := by
  refine .arr fun j hmember => ?_
  obtain ⟨x, hthere, rfl⟩ := List.mem_map.mp hmember
  exact h x hthere

theorem keyed_ofTexts (xs : List String) : (ofTexts xs).Keyed := keyed_arr_map fun s _ => .str s

theorem Keyed.member {members : List (String × Json)} (hkeyed : (Json.obj members).Keyed) {key : String}
    {v : Json} (h : lookup members key = some v) : v.Keyed := by
  cases hkeyed with
  | obj hdistinct heach => exact heach (key, v) (mem_of_lookup h)

theorem Keyed.item {items : List Json} (hkeyed : (Json.arr items).Keyed) {j : Json} (h : j ∈ items) : j.Keyed := by
  cases hkeyed with
  | arr heach => exact heach j h

theorem Keyed.finite {j : Json} (hkeyed : j.Keyed) : j.finite.Keyed := by
  induction hkeyed with
  | null => exact .null
  | bool b => exact .bool b
  | int n => exact .int n
  | float x =>
    rw [Json.finite]
    split
    · exact .null
    · exact .float x
  | str s => exact .str s
  | @arr items heach ih =>
    rw [Json.finite, finiteItems_eq_map]
    exact .arr (List.forall_mem_map.mpr ih)
  | @obj members hdistinct heach ih =>
    rw [Json.finite, finiteMembers_eq_map]
    refine .obj ?_ (List.forall_mem_map.mpr ih)
    rw [List.map_map]
    exact hdistinct

end Json

/-! ## Records -/

theorem FieldRef.keyed_toJson (r : FieldRef) : r.toJson.Keyed :=
  .obj (by simp) (by simp [Json.Keyed.str])

theorem Join.Condition.keyed_toJson (c : Join.Condition) : c.toJson.Keyed :=
  .obj (by simp) (by simp [Json.Keyed.str, Json.keyed_ofText?])

theorem Filter.Comparison.keyed_toJson (c : Filter.Comparison) : c.toJson.Keyed :=
  .obj (by simp) (by simp [Json.Keyed.str, FieldRef.keyed_toJson, Literal.keyed_toJson])

namespace Query

theorem Metric.keyed_toJson (m : Metric) : m.toJson.Keyed :=
  .obj (by simp) (by simp [Json.Keyed.str])

theorem Dimension.keyed_toJson (d : Dimension) : d.toJson.Keyed :=
  .obj (by simp) (by simp [Json.Keyed.str, Json.keyed_ofText?])

theorem OrderBy.keyed_toJson (o : OrderBy) : o.toJson.Keyed :=
  .obj (by simp) (by simp [Json.Keyed.str])

theorem Options.keyed_toJson (o : Options) : o.toJson.Keyed := by
  have httl : (intToJson o.cacheTtlSeconds).Keyed := by
    cases o.cacheTtlSeconds <;> constructor
  exact .obj (by simp) (by simp [Json.Keyed.bool, Json.keyed_ofText?, httl])

theorem DerivedColumn.keyed_toJson {d : DerivedColumn} (h : d.record.Keyed) : d.toJson.Keyed := by
  have hpairs : (DerivedField.pairsToJson d.joinDependencies).Keyed :=
    Json.keyed_arr_map fun p _ => Json.keyed_ofTexts [p.1, p.2]
  exact .obj (by simp) (by simp [Json.Keyed.str, Json.keyed_ofText?, Json.keyed_ofTexts, hpairs, h.finite])

theorem DerivedColumn.keyed_of_reader {d : DerivedColumn} {j : Json} (hkeyed : j.Keyed)
    (h : DerivedColumn.reader j = .valid d) : d.record.Keyed := by
  obtain ⟨ms, rfl, hbuilt⟩ := Check.record_eq_valid h
  simp only [Check.Checked.seq_eq_valid, Check.Checked.map_eq_valid] at hbuilt
  obtain ⟨_, _, ⟨_, _, ⟨_, _, ⟨_, _, ⟨_, r, ⟨_, _, ⟨_, _, ⟨_, _, rfl⟩, -, rfl⟩, -, rfl⟩, htreeRead, rfl⟩,
    -, rfl⟩, -, rfl⟩, -, rfl⟩, -, rfl⟩ := hbuilt
  obtain ⟨i, hfound, hread⟩ := Check.required_eq_valid htreeRead
  show r.record.Keyed
  rw [(TreeRecord.reader_eq_valid.mp hread).2]
  exact hkeyed.member hfound

namespace Config

/-- No object in the trees of the derived columns has two members of one key. -/
def Keyed (c : Config) : Prop := ∀ d ∈ c.derivedFields, d.record.Keyed

variable {c c' : Config}

theorem Keyed.toJson (h : c.Keyed) : c.toJson.Keyed := by
  refine .obj (by simp) ?_
  simp [Json.keyed_ofTexts, Json.Keyed.int, Options.keyed_toJson,
    Json.keyed_arr_map fun j _ => Join.Condition.keyed_toJson j,
    Json.keyed_arr_map fun f _ => Filter.Comparison.keyed_toJson f,
    Json.keyed_arr_map fun m _ => Metric.keyed_toJson m,
    Json.keyed_arr_map fun d _ => Dimension.keyed_toJson d,
    Json.keyed_arr_map fun d hmember => DerivedColumn.keyed_toJson (h d hmember),
    Json.keyed_arr_map fun o _ => OrderBy.keyed_toJson o]

/-- Reading a configuration keeps the trees of its derived columns as they were handed in. -/
theorem keyed_of_reader {j : Json} (hkeyed : j.Keyed) (h : reader j = .valid c) : c.Keyed := by
  obtain ⟨hread, -⟩ := Check.Checked.refusing_eq_valid.mp h
  obtain ⟨ms, rfl, hbuilt⟩ := Check.record_eq_valid hread
  simp only [Check.Checked.seq_eq_valid, Check.Checked.map_eq_valid] at hbuilt
  obtain ⟨_, _, ⟨_, _, ⟨_, _, ⟨_, derived, ⟨_, _, ⟨_, _, ⟨_, _, ⟨_, _, ⟨_, -, rfl⟩, -, rfl⟩, -, rfl⟩, -, rfl⟩,
    -, rfl⟩, hderivedRead, rfl⟩, -, rfl⟩, -, rfl⟩, -, rfl⟩ := hbuilt
  intro d (hmember : d ∈ derived)
  obtain ⟨items, hfound, i, hthere, hread⟩ := Check.mem_of_defaulted_list hderivedRead d hmember
  exact DerivedColumn.keyed_of_reader ((hkeyed.member hfound).item hthere) hread

end Config

/-! ## Hashes -/

/-- Payloads have one canonical text exactly when they are equal as JSON, whatever the order of their
keys; so configurations whose texts do not collide have one hash exactly when their records are equal. -/
theorem hash_decides_equality :
    (∀ j j' : Json, j.Keyed → j'.Keyed → (j.canonical = j'.canonical ↔ j.Equal j')) ∧
    ∀ c c' : Config, c.Keyed → c'.Keyed →
      (Digest.sha256 c.toJson.canonical = Digest.sha256 c'.toJson.canonical →
        c.toJson.canonical = c'.toJson.canonical) →
      (c.hash = c'.hash ↔ c.toJson.Equal c'.toJson) := by
  refine ⟨fun j j' hkeyed hkeyed' => Json.canonical_eq_iff_equal hkeyed hkeyed', ?_⟩
  intro c c' hkeyed hkeyed' hfree
  rw [← Json.canonical_eq_iff_equal hkeyed.toJson hkeyed'.toJson]
  exact ⟨hfree, congrArg Digest.sha256⟩

/-- An object in a list may have its members in another order, but a float is not the integer of its
value and a list not its reverse; and a derived column whose tree is handed in with its members in
another order gives the same hash. -/
theorem hash_decides_equality_reordered :
    let payload (n : Json) (order : List Json → List Json) : Json :=
      .obj [("filters", .arr (order [.obj [("left", .str "\"id\""), ("value", n)], .null])), ("limit", .int 7)]
    let shuffled : Json :=
      .obj [("limit", .int 7), ("filters", .arr [.obj [("value", .int 1), ("left", .str "\"id\"")], .null])]
    let column (record : Json) (h : Expr.ofJson record = .ok (.literal (.int 2))) : DerivedColumn :=
      ⟨"field-1", "two", .row, record, .literal (.int 2), [], [], none, none, h⟩
    let config (d : DerivedColumn) : Config := ⟨["order"], [], [], [], [], [d], [], 100, .standard⟩
    let c := config (column (.obj [("type", .str "literal"), ("value", .int 2), ("value_type", .str "number")]) rfl)
    let c' := config (column (.obj [("value", .int 2), ("value_type", .str "number"), ("type", .str "literal")]) rfl)
    (payload (.int 1) id).canonical = shuffled.canonical ∧
      (payload (.int 1) id).canonical ≠ (payload (.float 1) id).canonical ∧
      (payload (.int 1) id).canonical ≠ (payload (.int 1) List.reverse).canonical ∧
      c.Keyed ∧ c'.Keyed ∧ c.toJson.canonical = c'.toJson.canonical ∧ c.hash = c'.hash := by
  intro payload shuffled column config c c'
  have hkeyed (n : Json) (hsimple : n.Keyed) (order : List Json → List Json)
      (hkeeps : ∀ js, ∀ j ∈ order js, j ∈ js) : (payload n order).Keyed := by
    have heach : ∀ j ∈ [Json.obj [("left", .str "\"id\""), ("value", n)], .null], j.Keyed := by
      simp only [List.forall_mem_cons]
      exact ⟨.obj (by simp) (by simp [Json.Keyed.str, hsimple]), .null, by simp⟩
    refine .obj (by simp) ?_
    simp only [List.forall_mem_cons]
    exact ⟨.arr fun j hmember => heach j (hkeeps _ j hmember), .int 7, by simp⟩
  have hwhole : (payload (.int 1) id).Keyed := hkeyed _ (.int 1) id fun js j hmember => hmember
  have hother : shuffled.Keyed := by
    refine .obj (by simp) ?_
    simp only [List.forall_mem_cons]
    refine ⟨.int 7, .arr ?_, by simp⟩
    simp only [List.forall_mem_cons]
    exact ⟨.obj (by simp) (by simp [Json.Keyed.str, Json.Keyed.int]), .null, by simp⟩
  have hsame : (payload (.int 1) id).Equal shuffled := hwhole.equal_of_sortKeys rfl
  refine ⟨(hash_decides_equality.1 _ _ hwhole hother).mpr hsame, ?_, ?_, ?_⟩
  · rw [Ne, hash_decides_equality.1 _ _ hwhole (hkeyed _ (.float 1) id fun js j hmember => hmember)]
    intro hequal
    cases hequal with
    | obj _ heach =>
      cases heach "filters" _ _ rfl rfl with
      | arr _ heach =>
        cases heach 0 (by decide) (by decide) with
        | obj _ heach => cases heach "value" _ _ rfl rfl
  · rw [Ne, hash_decides_equality.1 _ _ hwhole (hkeyed _ (.int 1) List.reverse fun js j => List.mem_reverse.mp)]
    intro hequal
    cases hequal with
    | obj _ heach =>
      cases heach "filters" _ _ rfl rfl with
      | arr _ heach => cases heach 0 (by decide) (by decide)
  · have hrecord (ms : List (String × Json)) (hdistinct : (ms.map Prod.fst).Nodup)
        (heach : ∀ m ∈ ms, m.2.Keyed) (h : Expr.ofJson (.obj ms) = .ok (.literal (.int 2))) :
        (config (column (.obj ms) h)).Keyed := by
      intro d hmember
      rw [List.mem_singleton.mp hmember]
      exact .obj hdistinct heach
    have hkeyed : c.Keyed := hrecord _ (by simp) (by simp [Json.Keyed.str, Json.Keyed.int]) rfl
    have hkeyed' : c'.Keyed := hrecord _ (by simp) (by simp [Json.Keyed.str, Json.Keyed.int]) rfl
    have htext : c.toJson.canonical = c'.toJson.canonical := Json.canonical_eq_iff.mpr rfl
    have hequal := (hash_decides_equality.1 _ _ hkeyed.toJson hkeyed'.toJson).mp htext
    exact ⟨hkeyed, hkeyed', htext, (hash_decides_equality.2 c c' hkeyed hkeyed' fun _ => htext).mpr hequal⟩

end Query
end AdhocReport
