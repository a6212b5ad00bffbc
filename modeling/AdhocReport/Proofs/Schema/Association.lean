import AdhocReport.Proofs.Schema.Introspection
set_option autoImplicit false

/-!
# Introspected associations

A foreign key makes two associations: one at the model that has it and one at the model that it points to.  The
loops over the tables make them one key at a time, so for each pair of models the two sides list the same keys, and
they are the keys that the one table has to the other.  Nothing of this depends on the order of the tables, on how
many keys there are, or on whether a key points to its own table.
-/

namespace AdhocReport.Schema

/-- The keys behind the associations of one kind with the model `other`: the column that has the key, and the column
it points to. -/
def linksOf (kind other : String) (as : List Association) : List (String × String) :=
  (as.filter fun a => a.kind == kind && a.targetModel == other).map fun a => (a.foreignKey, a.sourceKey)

/-- The foreign keys of a table to the table `other`, in the order of its columns. -/
def Table.linksTo (t : Table) (other : String) : List (String × String) :=
  t.columns.flatMap fun c => (c.foreignKeys.filter fun k => k.table == other).map fun k => (c.name, k.column)

theorem linksOf_flatMap {α : Type} (kind other : String) (xs : List α) (f : α → List Association) :
    linksOf kind other (xs.flatMap f) = xs.flatMap fun x => linksOf kind other (f x) := by
  unfold linksOf
  rw [List.filter_flatMap, List.map_flatMap]

theorem linksOf_associations (kind other : String) (tables : List Table) (name : String) :
    linksOf kind other (associations tables name) =
      tables.flatMap fun t => t.foreignKeys.flatMap fun k => linksOf kind other (associationsOf name t.name k) := by
  simp only [associations, linksOf_flatMap]

/-! ## One key -/

/-- The link of a key, if it leads from the table `source` to the table `target`. -/
def linkBetween (source target owner : String) (k : ForeignKey) : List (String × String) :=
  if owner = source ∧ k.target.table = target then [(k.column, k.target.column)] else []

theorem linksOf_belongsTo (name other owner : String) (k : ForeignKey) :
    linksOf "belongs_to" other (associationsOf name owner k) = linkBetween name other owner k := by
  unfold associationsOf linkBetween
  by_cases howner : owner = name
  · by_cases htarget : k.target.table = other
    · simp [linksOf, belongsTo, hasMany, howner, htarget]
    · simp [linksOf, belongsTo, hasMany, howner, htarget]
  · simp [linksOf, hasMany, howner]

theorem linksOf_hasMany (name other owner : String) (k : ForeignKey) :
    linksOf "has_many" other (associationsOf name owner k) = linkBetween other name owner k := by
  unfold associationsOf linkBetween
  by_cases htarget : k.target.table = name
  · by_cases howner : owner = other
    · simp [linksOf, belongsTo, hasMany, howner, htarget]
    · simp [linksOf, belongsTo, hasMany, howner, htarget]
  · simp [linksOf, belongsTo, htarget]

/-! ## All keys -/

/-- The links from the table `source` to the table `target`. -/
def linksBetween (tables : List Table) (source target : String) : List (String × String) :=
  tables.flatMap fun t => t.foreignKeys.flatMap (linkBetween source target t.name)

/-- For any list of tables, the two sides of a pair of models list the same keys. -/
theorem linksOf_mirrored (tables : List Table) (source target : String) :
    linksOf "belongs_to" target (associations tables source) = linksBetween tables source target ∧
      linksOf "has_many" source (associations tables target) = linksBetween tables source target := by
  simp only [linksOf_associations, linksOf_belongsTo, linksOf_hasMany]
  exact ⟨rfl, rfl⟩

/-- A table has its own keys and no others. -/
theorem flatMap_linkBetween (t : Table) (source target : String) :
    t.foreignKeys.flatMap (linkBetween source target t.name) =
      if t.name = source then t.linksTo target else [] := by
  by_cases howner : t.name = source
  · rw [if_pos howner, Table.foreignKeys, Table.linksTo, List.flatMap_assoc]
    refine List.flatMap_congr fun c _ => ?_
    rw [List.flatMap_map]
    induction c.foreignKeys with
    | nil => rfl
    | cons k ks ih =>
      rw [List.flatMap_cons, ih, linkBetween]
      by_cases htarget : k.table = target
      · simp [howner, htarget]
      · simp [htarget]
  · rw [if_neg howner, List.flatMap_eq_nil_iff]
    intro k _
    rw [linkBetween, if_neg fun h => howner h.1]

/-- Of entries with distinct texts only one has a given text. -/
theorem flatMap_of_nodup {α β : Type} {f : α → String} (g : α → List β) {xs : List α} (hnodup : (xs.map f).Nodup)
    {x : α} (hx : x ∈ xs) : (xs.flatMap fun y => if f y = f x then g y else []) = g x := by
  induction xs with
  | nil => cases hx
  | cons y ys ih =>
    rw [List.map_cons, List.nodup_cons] at hnodup
    rw [List.flatMap_cons]
    rcases List.mem_cons.mp hx with rfl | hrest
    · have hnone : (ys.flatMap fun z => if f z = f x then g z else []) = [] := by
        rw [List.flatMap_eq_nil_iff]
        intro z hz
        have hne : f z ≠ f x := fun heq => hnodup.1 (heq ▸ List.mem_map_of_mem hz)
        exact if_neg hne
      rw [if_pos rfl, hnone, List.append_nil]
    · have hne : f y ≠ f x := fun heq => hnodup.1 (heq ▸ List.mem_map_of_mem hrest)
      rw [if_neg hne, List.nil_append, ih hnodup.2 hrest]

/-- Where names are distinct, the links of a table are all links from it. -/
theorem linksBetween_eq {tables : List Table} (hnames : (tables.map (·.name)).Nodup) {s : Table} (hs : s ∈ tables)
    (target : String) : linksBetween tables s.name target = s.linksTo target := by
  simp only [linksBetween, flatMap_linkBetween]
  exact flatMap_of_nodup (fun t => t.linksTo target) hnames hs

/-- Introspection makes one model of each table, with one field for each column in the order of the columns.  For any
two models, the same or not, what the first belongs to in the second and what the second has many of in the first are
both the foreign keys from the first table to the second: each as often as the table has it, and in the order of the
columns. -/
theorem associations_mirrored {tables : List Table} (hnames : (tables.map (·.name)).Nodup)
    (descriptions : List (String × String)) :
    let registry := Registry.ofTables tables descriptions
    (registry.models.map fun m => (m.id, m.tableName, m.fields)).Perm
      (tables.map fun t => (t.name, t.name, t.columns.map fieldOf)) ∧
    ∀ S ∈ registry.models, ∀ T ∈ registry.models, ∃ s ∈ tables, s.name = S.id ∧
      linksOf "belongs_to" T.id S.associations = s.linksTo T.id ∧
      linksOf "has_many" S.id T.associations = s.linksTo T.id := by
  intro registry
  have hperm := perm_sortedTables hnames
  have hmodels : registry.models = (sortedTables tables).map (modelOf (sortedTables tables) descriptions) :=
    models_ofTables hnames
  have hsorted : ((sortedTables tables).map (·.name)).Nodup := (hperm.map _).nodup_iff.mpr hnames
  constructor
  · rw [hmodels, List.map_map]
    exact hperm.map _
  · intro S hS T hT
    rw [hmodels] at hS hT
    obtain ⟨s, hs, rfl⟩ := List.mem_map.mp hS
    obtain ⟨t, -, rfl⟩ := List.mem_map.mp hT
    obtain ⟨hbelongs, hmany⟩ := linksOf_mirrored (sortedTables tables) s.name t.name
    have hlinks := linksBetween_eq hsorted hs t.name
    exact ⟨s, hperm.mem_iff.mp hs, rfl, hbelongs.trans hlinks, hmany.trans hlinks⟩

/-- A column of whole numbers that points to the ids of `staff`. -/
def staffColumn (name : String) : Column := ⟨name, name, "INTEGER", .integer, [⟨"staff", "id"⟩], false, true⟩

/-- Employees, each with a manager among them. -/
def staffTable : Table := ⟨"staff", none, [⟨"id", "id", "INTEGER", .integer, [], true, false⟩, staffColumn "manager"]⟩

/-- Trips with a driver and a deputy. -/
def tripTable : Table := ⟨"trips", none, [staffColumn "driver", staffColumn "deputy"]⟩

/-- A trip belongs to two employees, and an employee to another one. -/
theorem associations_mirrored_staff :
    ([tripTable, staffTable].map (·.name)).Nodup ∧
      ∃ trips ∈ (Registry.ofTables [tripTable, staffTable] []).models,
        ∃ staff ∈ (Registry.ofTables [tripTable, staffTable] []).models, trips.id = "trips" ∧ staff.id = "staff" ∧
          linksOf "belongs_to" "staff" trips.associations = [("driver", "id"), ("deputy", "id")] ∧
          linksOf "has_many" "trips" staff.associations = [("driver", "id"), ("deputy", "id")] ∧
          linksOf "belongs_to" "staff" staff.associations = [("manager", "id")] ∧
          linksOf "has_many" "staff" staff.associations = [("manager", "id")] := by
  have hnames : ([tripTable, staffTable].map (·.name)).Nodup := by decide
  have hmodel {t : Table} (ht : t ∈ [tripTable, staffTable]) :
      modelOf (sortedTables [tripTable, staffTable]) [] t ∈ (Registry.ofTables [tripTable, staffTable] []).models := by
    rw [models_ofTables hnames]
    exact List.mem_map_of_mem ((perm_sortedTables hnames).mem_iff.mpr ht)
  have htrips : tripTable ∈ [tripTable, staffTable] := List.mem_cons_self
  have hstaff : staffTable ∈ [tripTable, staffTable] := List.mem_cons_of_mem _ List.mem_cons_self
  obtain ⟨-, hmirrored⟩ := associations_mirrored hnames []
  obtain ⟨t, ht, hname, hbelongs, hmany⟩ := hmirrored _ (hmodel htrips) _ (hmodel hstaff)
  obtain ⟨u, hu, hname', hbelongs', hmany'⟩ := hmirrored _ (hmodel hstaff) _ (hmodel hstaff)
  obtain rfl : t = tripTable := List.inj_on_of_nodup_map hnames ht htrips hname
  obtain rfl : u = staffTable := List.inj_on_of_nodup_map hnames hu hstaff hname'
  exact ⟨hnames, _, hmodel htrips, _, hmodel hstaff, rfl, rfl, hbelongs, hmany, hbelongs', hmany'⟩

end AdhocReport.Schema
