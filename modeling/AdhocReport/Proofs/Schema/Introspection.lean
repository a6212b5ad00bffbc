import AdhocReport.Proofs.Query.Grouping
import AdhocReport.Warehouse
set_option autoImplicit false

/-!
# Introspected schemas

Introspection makes one model of each table and one field of each column, in whichever order the tables are listed.
A field has the key of its column for an id and the name of it for a column name; the name is what a query looks
the column up by, among the keys.  So a field is used with the column it was made of exactly when the column has its
name for a key.
-/

namespace AdhocReport

namespace Schema

/-! ## Lookups by distinct texts -/

/-- An entry is found by its text if no other entry has the text. -/
theorem find?_of_nodup {α : Type} {f : α → String} {xs : List α} (hnodup : (xs.map f).Nodup) {x : α} (hx : x ∈ xs) :
    xs.find? (fun y => f y == f x) = some x := by
  induction xs with
  | nil => cases hx
  | cons y ys ih =>
    rw [List.map_cons, List.nodup_cons] at hnodup
    rcases List.mem_cons.mp hx with rfl | hrest
    · exact List.find?_cons_of_pos (beq_self_eq_true _)
    · have hne : f y ≠ f x := fun heq => hnodup.1 (heq ▸ List.mem_map_of_mem hrest)
      rw [List.find?_cons_of_neg (by simpa using hne), ih hnodup.2 hrest]

/-! ## The order of tables -/

/-- What a round leaves over are the tables that it does not take. -/
theorem filter_not_taken {pending : List Table} (hnames : (pending.map (·.name)).Nodup) (taken : Table → Bool) :
    pending.filter (fun t => !((pending.filter taken).map (·.name)).contains t.name) =
      pending.filter fun t => !taken t := by
  refine List.filter_congr fun t ht => congrArg _ ?_
  rw [Bool.eq_iff_iff, List.contains_iff_mem, List.mem_map]
  constructor
  · rintro ⟨u, hu, hname⟩
    obtain ⟨hmem, htaken⟩ := List.mem_filter.mp hu
    rwa [← List.inj_on_of_nodup_map hnames hmem ht hname]
  · intro htaken
    exact ⟨t, List.mem_filter.mpr ⟨ht, htaken⟩, rfl⟩

/-- The rounds list each pending table once. -/
theorem perm_emitRounds (waitsFor : Table → List String) (fuel : ℕ) {pending : List Table}
    (hnames : (pending.map (·.name)).Nodup) : (emitRounds waitsFor fuel pending).Perm pending := by
  induction fuel generalizing pending with
  | zero => exact .refl _
  | succ fuel ih =>
    unfold emitRounds
    dsimp only
    split
    · exact .refl _
    · rw [filter_not_taken hnames]
      have hrest (p : Table → Bool) := ih (hnames.sublist ((@List.filter_sublist _ p pending).map _))
      exact ((hrest _).append_left _).trans (List.filter_append_perm _ _)

/-- Sorting lists each table once. -/
theorem perm_sortedTables {tables : List Table} (hnames : (tables.map (·.name)).Nodup) :
    (sortedTables tables).Perm tables := by
  have hsorted := Collection.perm_sortBy (fun a b : Table => Collection.textLe a.name b.name) tables
  exact (perm_emitRounds _ _ ((hsorted.map _).nodup_iff.mpr hnames)).trans hsorted

/-! ## The registry -/

theorem put_of_not_mem {models : List Model} {m : Model} (h : m.id ∉ models.map (·.id)) :
    Registry.put models m = models ++ [m] := by
  induction models with
  | nil => rfl
  | cons other rest ih =>
    rw [List.map_cons, List.mem_cons, not_or] at h
    rw [Registry.put, if_neg (Ne.symm h.1), ih h.2]
    rfl

/-- Models of different ids are registered as they are given. -/
theorem ofModels_of_nodup {models : List Model} (hids : (models.map (·.id)).Nodup) :
    (Registry.ofModels models).models = models := by
  induction models using List.reverseRecOn with
  | nil => rfl
  | append_singleton models m ih =>
    rw [List.map_append, List.nodup_append] at hids
    obtain ⟨hbefore, -, hapart⟩ := hids
    have hfold : models.foldl Registry.put [] = models := ih hbefore
    show (models ++ [m]).foldl Registry.put [] = _
    rw [List.foldl_append, hfold]
    exact put_of_not_mem fun hmem => hapart _ hmem _ (List.mem_singleton_self _) rfl

/-- The tables of a database: their names differ, and the keys of the columns of each. -/
structure Distinct (tables : List Table) : Prop where
  names : (tables.map (·.name)).Nodup
  keys : ∀ t ∈ tables, (t.columns.map (·.key)).Nodup

section

variable {tables : List Table} {descriptions : List (String × String)}

theorem models_ofTables (hnames : (tables.map (·.name)).Nodup) : (Registry.ofTables tables descriptions).models =
    (sortedTables tables).map (modelOf (sortedTables tables) descriptions) := by
  refine ofModels_of_nodup ?_
  rw [List.map_map]
  exact ((perm_sortedTables hnames).map _).nodup_iff.mpr hnames

/-- Each table has a model of its name with a field for each of its columns, and there are no other models. -/
theorem perm_ofTables (h : Distinct tables) :
    ((Registry.ofTables tables descriptions).models.map fun m => (m.id, m.tableName, m.fields)).Perm
      (tables.map fun t => (t.name, t.name, t.columns.map fieldOf)) := by
  rw [models_ofTables h.names, List.map_map]
  exact (perm_sortedTables h.names).map _

theorem model?_ofTables (h : Distinct tables) {t : Table} (ht : t ∈ tables) :
    (Registry.ofTables tables descriptions).model? t.name = some (modelOf (sortedTables tables) descriptions t) := by
  have hmem : modelOf (sortedTables tables) descriptions t ∈ (Registry.ofTables tables descriptions).models := by
    rw [models_ofTables h.names]
    exact List.mem_map_of_mem ((perm_sortedTables h.names).mem_iff.mpr ht)
  have hids : ((Registry.ofTables tables descriptions).models.map (·.id)).Nodup := by
    rw [models_ofTables h.names, List.map_map]
    exact ((perm_sortedTables h.names).map _).nodup_iff.mpr h.names
  exact find?_of_nodup hids hmem

/-- The field of a column is found by the column's key. -/
theorem field?_ofTables (h : Distinct tables) {t : Table} (ht : t ∈ tables) {c : Column} (hc : c ∈ t.columns) :
    (Registry.ofTables tables descriptions).field? t.name c.key = some (fieldOf c) := by
  have hids : ((t.columns.map fieldOf).map (·.id)).Nodup := by
    rw [List.map_map]
    exact h.keys t ht
  have hfind := find?_of_nodup hids (List.mem_map_of_mem hc)
  simp only [Registry.field?, model?_ofTables h ht, Model.field?, modelOf]
  simp only [fieldOf] at hfind ⊢
  rw [hfind]

theorem backingColumn_fieldOf {c : Column} (hname : c.name = c.key ∨ c.name = "") :
    (fieldOf c).backingColumn = c.key := by
  simp only [Field.backingColumn, fieldOf]
  rcases hname with hsame | hempty
  · rw [hsame, ite_self]
  · rw [hempty, if_pos (beq_self_eq_true _)]

theorem column?_of_key (h : Distinct tables) {t : Table} (ht : t ∈ tables) {c : Column} (hc : c ∈ t.columns) :
    t.column? c.key = some c :=
  find?_of_nodup (h.keys t ht) hc

end

end Schema

namespace Query

open AdhocReport.Sql AdhocReport.Schema
open Outcome (bind_ok)

variable {sc : Scope}

/-! ## Uses of a field -/

/-- Every use of a field is compiled to the column: as it is in a preview and in a tree, and as an output, in a
join and in a comparison wherever its type and the values allow it. -/
structure Scope.Uses (s : Scope) (ref : FieldRef) (found : Located) : Prop where
  located : s.locate ref = .ok found
  previewed : s.previewColumn ref = .ok ⟨columnAlias ⟨ref.model, found.field.id⟩, .column found.column⟩
  shown : s.scalar ref = .ok (.column found.column)
  dimension : ∀ bucket label, (bucket = none ∨ found.field.type = .date) →
    s.dimension ⟨ref, bucket, label⟩ = .ok ⟨label, keyScalar bucket found.column⟩
  metric : ∀ a label, (a.isCounting = true ∨ found.field.type.isNumeric = true) →
    s.metric ⟨ref, a, label⟩ = .ok ⟨label, .aggregate a (.column found.column)⟩
  joined : ∀ (j : Join.Condition) other, (j.left = ref → s.locate j.right = .ok other →
      s.equality j = .ok ⟨found.column, other.column⟩) ∧
    (j.right = ref → s.locate j.left = .ok other → s.equality j = .ok ⟨other.column, found.column⟩)
  compared : ∀ f : Filter.Comparison, f.left = ref → ¬ OrdersTruth f →
    s.condition f = .ok (.compare found.column f.comparator f.value)

theorem Scope.uses_of_located {ref : FieldRef} {found : Located} (h : sc.locate ref = .ok found) :
    sc.Uses ref found where
  located := h
  previewed := by rw [Scope.previewColumn, h, bind_ok]
  shown := by
    rw [Scope.scalar, h]
    rfl
  dimension bucket label hdate := by
    rw [Scope.dimension, h, bind_ok]
    cases bucket with
    | none => rfl
    | some b =>
      have htype := hdate.resolve_left (Option.some_ne_none b)
      simp only [htype, beq_self_eq_true, if_true]
      rfl
  metric a label hallowed := by
    rw [Scope.metric, h, bind_ok]
    exact if_pos (Bool.or_eq_true_iff.mpr hallowed)
  joined j other := by
    constructor
    · rintro rfl hother
      rw [Scope.equality, h, hother]
      rfl
    · rintro rfl hother
      rw [Scope.equality, h, hother]
      rfl
  compared f hleft hordered := by
    rw [← hleft] at h
    exact Scope.condition_eq_compare h hordered

/-! ## Introspected targets -/

/-- A target whose registry is introspected from its tables. -/
def Target.introspected (tables : List Table) (descriptions : List (String × String)) (d : Dialect)
    (rowLimit : Option ℤ) : Target :=
  ⟨.ofTables tables descriptions, tables, d, rowLimit⟩

section

variable {tables : List Table} {descriptions : List (String × String)} {d : Dialect} {rowLimit : Option ℤ}

theorem Target.table_introspected (h : Distinct tables) {t : Table} (ht : t ∈ tables) :
    (introspected tables descriptions d rowLimit).table t.name = .ok (t.name, t) := by
  have hfind : tables.find? (fun table => table.name == t.name) = some t := find?_of_nodup h.names ht
  simp only [Target.table, introspected, model?_ofTables h ht, modelOf, hfind]

theorem Target.scope_introspected (h : Distinct tables) {models : List String}
    (hmodels : ∀ m ∈ models, m ∈ tables.map (·.name)) :
    ∃ sc, (introspected tables descriptions d rowLimit).scope models = .ok sc := by
  obtain ⟨found, hfound⟩ : ∃ found, models.mapM (introspected tables descriptions d rowLimit).table = .ok found := by
    refine Outcome.exists_mapM_eq_ok.mpr fun m hm => ?_
    obtain ⟨t, ht, rfl⟩ := List.mem_map.mp (hmodels m hm)
    exact ⟨_, table_introspected h ht⟩
  exact ⟨_, by rw [Target.scope, hfound]; rfl⟩

/-- The field of a column is looked up under its column name among the keys of the table. -/
theorem Scope.locate_introspected (h : Distinct tables) {models : List String}
    (hscope : (Target.introspected tables descriptions d rowLimit).scope models = .ok sc) {t : Table}
    (ht : t ∈ tables) (hmodel : t.name ∈ models) {c : Column} (hc : c ∈ t.columns) :
    (∀ other, t.column? (fieldOf c).backingColumn = some other →
      sc.locate ⟨t.name, c.key⟩ = .ok ⟨⟨t.name, other⟩, fieldOf c⟩) ∧
    (t.column? (fieldOf c).backingColumn = none →
      sc.locate ⟨t.name, c.key⟩ = .error (.missingKey (fieldOf c).backingColumn)) := by
  have hlookup := (Scope.lookup_tables hscope t.name t).mpr ⟨hmodel, Target.table_introspected h ht⟩
  have hfield : sc.registry.field? t.name c.key = some (fieldOf c) := by
    rw [(Target.tables_of_scope hscope).1]
    exact field?_ofTables h ht hc
  constructor
  · intro other hother
    simp only [Scope.locate, hlookup, hfield, hother]
  · intro hnone
    simp only [Scope.locate, hlookup, hfield, hnone]

/-- An introspected registry has a model for each table with a field for each column.  Where the column has its
name for a key, every use of the field is compiled to that column; where it has another key, the field is not found,
or another column is taken for it. -/
theorem introspected_columns (h : Distinct tables) :
    ((Target.introspected tables descriptions d rowLimit).registry.models.map fun m =>
      (m.id, m.tableName, m.fields)).Perm (tables.map fun t => (t.name, t.name, t.columns.map fieldOf)) ∧
    ∀ models, (∀ m ∈ models, m ∈ tables.map (·.name)) →
      ∃ sc, (Target.introspected tables descriptions d rowLimit).scope models = .ok sc ∧
        ∀ t ∈ tables, t.name ∈ models → ∀ c ∈ t.columns,
          (c.name = c.key ∨ c.name = "" → sc.Uses ⟨t.name, c.key⟩ ⟨⟨t.name, c⟩, fieldOf c⟩) ∧
          (¬ (c.name = c.key ∨ c.name = "") →
            (sc.locate ⟨t.name, c.key⟩ = .error (.missingKey c.name) ∧ ∀ other ∈ t.columns, other.key ≠ c.name) ∨
            ∃ other ∈ t.columns, other ≠ c ∧ other.key = c.name ∧
              sc.locate ⟨t.name, c.key⟩ = .ok ⟨⟨t.name, other⟩, fieldOf c⟩) := by
  refine ⟨perm_ofTables h, fun models hmodels => ?_⟩
  obtain ⟨sc, hscope⟩ := Target.scope_introspected h hmodels
  refine ⟨sc, hscope, fun t ht hmodel c hc => ?_⟩
  obtain ⟨hfound, hmissing⟩ := Scope.locate_introspected h hscope ht hmodel hc
  constructor
  · intro hname
    rw [backingColumn_fieldOf hname] at hfound
    exact Scope.uses_of_located (hfound c (column?_of_key h ht hc))
  · intro hname
    obtain ⟨hkey, hempty⟩ := not_or.mp hname
    have hbacking : (fieldOf c).backingColumn = c.name := by
      simp only [Field.backingColumn, fieldOf]
      rw [if_neg (by simpa using hempty)]
    rw [hbacking] at hfound hmissing
    cases hfind : t.column? c.name with
    | none =>
      refine .inl ⟨hmissing hfind, fun other hother => ?_⟩
      simpa using List.find?_eq_none.mp hfind other hother
    | some other =>
      have hother : other.key = c.name := by simpa using List.find?_some hfind
      refine .inr ⟨other, List.mem_of_find?_eq_some hfind, ?_, hother, hfound other hfind⟩
      rintro rfl
      exact hkey hother.symm

/-- Where every column has its name for a key, every introspected model is mapped. -/
theorem Target.mapsAll_introspected (h : Distinct tables)
    (hkeys : ∀ t ∈ tables, ∀ c ∈ t.columns, c.name = c.key ∨ c.name = "") :
    (Target.introspected tables descriptions d rowLimit).MapsAll := by
  intro id m hm
  have hmem : m ∈ (Registry.ofTables tables descriptions).models := List.mem_of_find?_eq_some hm
  rw [models_ofTables h.names] at hmem
  obtain ⟨t, ht, rfl⟩ := List.mem_map.mp hmem
  have hid : (modelOf (sortedTables tables) descriptions t).id = id := by simpa using List.find?_some hm
  obtain rfl : t.name = id := hid
  have htable := (perm_sortedTables h.names).mem_iff.mp ht
  refine ⟨_, t, hm, table_introspected h htable, fun f hf => ?_⟩
  obtain ⟨c, hc, rfl⟩ := List.mem_map.mp hf
  rw [backingColumn_fieldOf (hkeys t htable c hc)]
  exact ⟨c, column?_of_key h htable hc⟩

/-- The warehouse on SQLite. -/
def storedWarehouse : Target := .introspected Warehouse.tables Warehouse.descriptions .sqlite none

theorem distinct_warehouse : Distinct Warehouse.tables := ⟨by decide, by decide⟩

theorem mapsAll_storedWarehouse : storedWarehouse.MapsAll :=
  Target.mapsAll_introspected distinct_warehouse (by decide)

/-- In the warehouse the total of an order is used with its column. -/
theorem introspected_columns_of_orders :
    Distinct Warehouse.tables ∧ ∃ sc, storedWarehouse.scope ["orders"] = .ok sc ∧
      sc.Uses ⟨"orders", "total"⟩ ⟨⟨"orders", Warehouse.plainColumn "total" "NUMERIC(12, 2)" (.numeric 2) false⟩,
        fieldOf (Warehouse.plainColumn "total" "NUMERIC(12, 2)" (.numeric 2) false)⟩ := by
  obtain ⟨-, hused⟩ := @introspected_columns _ Warehouse.descriptions .sqlite none distinct_warehouse
  obtain ⟨sc, hscope, hall⟩ := hused ["orders"] (by decide)
  obtain ⟨husable, -⟩ := hall Warehouse.orders (by decide) (by decide)
    (Warehouse.plainColumn "total" "NUMERIC(12, 2)" (.numeric 2) false) (by decide)
  exact ⟨distinct_warehouse, sc, hscope, husable (.inl rfl)⟩

/-- A column `c1` with the key `k1`. -/
def renamedTable : Table := ⟨"t", none, [⟨"c1", "k1", "INTEGER", .integer, [], false, true⟩]⟩

/-- Two columns, each of which has the other's name for a key. -/
def crossedTable : Table :=
  ⟨"t", none, [⟨"b", "a", "INTEGER", .integer, [], false, true⟩, ⟨"a", "b", "INTEGER", .integer, [], false, true⟩]⟩

/-- A column with a key of its own is not found by its field, and where keys and names cross the field of one column
finds the other. -/
theorem renamed_column_lost :
    (Distinct [renamedTable] ∧ ∃ sc, (Target.introspected [renamedTable] [] .sqlite none).scope ["t"] = .ok sc ∧
      sc.locate ⟨"t", "k1"⟩ = .error (.missingKey "c1")) ∧
    (Distinct [crossedTable] ∧ ∃ sc found, (Target.introspected [crossedTable] [] .sqlite none).scope ["t"] = .ok sc ∧
      sc.locate ⟨"t", "a"⟩ = .ok found ∧ found.field.id = "a" ∧ found.column.column.key = "b") :=
  ⟨⟨⟨by decide, by decide⟩, _, rfl, rfl⟩, ⟨⟨by decide, by decide⟩, _, _, rfl, rfl, rfl, rfl⟩⟩

end

end Query

end AdhocReport
