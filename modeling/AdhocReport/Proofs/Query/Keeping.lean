import AdhocReport.Query.Execution
import AdhocReport.Proofs.Outcome
set_option autoImplicit false

/-!
# Results that can be kept

A record keeps the rows of a result as they are, unless there is a span of time among their values.  Spans
come from the columns of spans only, so a statement that computes none gives a result that can be kept.
-/

namespace AdhocReport.Query

open AdhocReport.Sql AdhocReport.Outcome

/-! ## Values -/

theorem Cell.kept_eq_error_iff {v : Cell} {f : Failure} : v.kept = .error f ↔ f = .spanInRecord ∧ ∃ d, v = .span d := by
  cases v <;> simp [kept, eq_comm]

/-- A row of JSON values, as a row of a result. -/
def Row.cells (row : Row) : List (String × Cell) := row.map fun entry => (entry.1, .json entry.2)

/-- There is a span among the values. -/
def ResultTable.HoldsSpan (t : ResultTable) : Prop := ∃ row ∈ t.cells, ∃ entry ∈ row, ∃ d, entry.2 = .span d

/-! ## Rows -/

variable {t : ResultTable}

private theorem keptRow_eq_ok_iff {row : List (String × Cell)} {kept : Row} :
    row.mapM (fun entry => entry.2.kept.map fun j => (entry.1, j)) = .ok kept ↔ row = Row.cells kept := by
  have hentry : ∀ (entry : String × Cell) (e : String × Json),
      entry.2.kept.map (fun j => (entry.1, j)) = .ok e ↔ entry = (e.1, .json e.2) := by
    rintro ⟨label, v⟩ ⟨label', j⟩
    cases v <;> simp [Cell.kept, Except.map]
  rw [mapM_eq_ok, Row.cells, ← List.forall₂_eq_eq_eq, List.forall₂_map_right_iff]
  simp only [hentry]

/-- What is kept is what there is. -/
theorem ResultTable.keptRows_eq_ok_iff {rows : List Row} : t.keptRows = .ok rows ↔ t.cells = rows.map Row.cells := by
  rw [keptRows, mapM_eq_ok, ← List.forall₂_eq_eq_eq, List.forall₂_map_right_iff]
  simp only [keptRow_eq_ok_iff]

/-- What keeps rows from being kept is a span. -/
theorem ResultTable.keptRows_eq_error {f : Failure} (h : t.keptRows = .error f) : f = .spanInRecord ∧ t.HoldsSpan := by
  obtain ⟨row, hrow, h⟩ := exists_of_mapM_eq_error h
  obtain ⟨entry, hentry, h⟩ := exists_of_mapM_eq_error h
  obtain ⟨hf, d, hd⟩ := Cell.kept_eq_error_iff.mp (map_eq_error.mp h)
  exact ⟨hf, row, hrow, entry, hentry, d, hd⟩

/-- JSON values are shown as they are. -/
theorem ResultTable.rows_of_cells {rows : List Row} (h : t.cells = rows.map Row.cells) : t.rows = rows := by
  rw [ResultTable.rows, h, List.map_map]
  refine (List.map_congr_left fun row _ => ?_).trans (List.map_id rows)
  simp [Row.cells, Cell.shown, Function.comp_def]

/-- There is no span among JSON values. -/
theorem ResultTable.not_holdsSpan {rows : List Row} (h : t.cells = rows.map Row.cells) : ¬ t.HoldsSpan := by
  rintro ⟨row, hrow, entry, hentry, d, hd⟩
  rw [h] at hrow
  obtain ⟨kept, -, rfl⟩ := List.mem_map.mp hrow
  obtain ⟨e, -, rfl⟩ := List.mem_map.mp hentry
  cases hd

/-- Rows are kept if there is no span among their values. -/
theorem ResultTable.exists_keptRows (h : ¬ t.HoldsSpan) : ∃ rows, t.keptRows = .ok rows := by
  cases hkept : t.keptRows with
  | ok rows => exact ⟨rows, rfl⟩
  | error f => exact absurd (keptRows_eq_error hkept).2 h

/-- Rows with a span among their values are not kept. -/
theorem ResultTable.HoldsSpan.keptRows (h : t.HoldsSpan) : t.keptRows = .error .spanInRecord := by
  cases hkept : t.keptRows with
  | error f => rw [(keptRows_eq_error hkept).1]
  | ok rows => exact absurd h (not_holdsSpan (keptRows_eq_ok_iff.mp hkept))

/-! ## Columns of spans -/

end AdhocReport.Query
