import AdhocReport.Query.Compilation
import AdhocReport.Proofs.Outcome
import AdhocReport.Proofs.Sql.Template
set_option autoImplicit false

/-!
# Queries: the conditions of previews

The filters of a preview become clauses, and a clause is handed over as a text in which colons might name
parameters.  Its colons are escaped before: whatever names and values it has, nothing in it names a parameter,
and the statement has the clause as it was.
-/

namespace AdhocReport.Query

open AdhocReport.Sql AdhocReport.Sql.Template
open Outcome (bind_eq_ok)

variable {t : Target} {r : PreviewRequest} {s : Statement}

/-- The filters of a preview with the models under their own ids as aliases. -/
def Target.filters (t : Target) (r : PreviewRequest) : Filter.Compilation :=
  Filter.compile r.filters (r.models.map fun m => (m, m)) t.registry

/-- A compiled preview is put together from what its parts are compiled to. -/
theorem Target.preview_parts (h : t.preview r = .ok s) :
    ∃ sc joined columns derived, t.scope r.models = .ok sc ∧ sc.join r.models r.joins = .ok joined ∧
      r.columns.mapM sc.previewColumn = .ok columns ∧
      r.derivedFields.mapM (sc.derived t.dialect false) = .ok derived ∧ columns ++ derived ≠ [] ∧
      s = ⟨[], columns ++ derived, joined.source,
        joined.conditions.map .equal ++ (t.filters r).predicates.map .predicate, [], t.limit r.limit⟩ := by
  obtain ⟨-, -, h⟩ := bind_eq_ok.mp h
  obtain ⟨sc, hscope, h⟩ := bind_eq_ok.mp h
  obtain ⟨joined, hjoined, h⟩ := bind_eq_ok.mp h
  obtain ⟨columns, hcolumns, h⟩ := bind_eq_ok.mp h
  obtain ⟨derived, hderived, h⟩ := bind_eq_ok.mp h
  split at h
  · cases h
  · rename_i hempty
    dsimp only at h
    split at h
    · cases h
    · cases h
      refine ⟨sc, joined, columns, derived, hscope, hjoined, hcolumns, hderived, fun hnil => hempty ?_, rfl⟩
      obtain ⟨rfl, rfl⟩ := List.append_eq_nil_iff.mp hnil
      rfl

/-- Whatever a clause holds, with its colons escaped it names no parameter, and what is written for it is the
clause, character for character; percent signs may be doubled before that or after it.  So a preview has the
conditions of its joins and then the clauses of its filters as they are, with percent signs doubled for the
driver of PostgreSQL. -/
theorem preview_clauses_verbatim :
    (∀ clause : List Char,
      ((∀ name, ¬ Names (escape clause) name) ∧ ∀ text, Unescapes (escape clause) text ↔ text = clause) ∧
      (parameters none (escape clause) = [] ∧ render (escape clause) = clause) ∧
      escape (doubled '%' clause) = doubled '%' (escape clause)) ∧
    ∀ (t : Target) (r : PreviewRequest) (s : Statement), t.preview r = .ok s →
      ∃ joined : List Equality, s.conditions.map (·.fragment t.dialect) =
        joined.map (fun e => [.text (e.text t.dialect)]) ++
          ((t.filters r).clauses (t.dialect == .postgresql)).map fun clause =>
            [.text (driverText t.dialect clause)] := by
  refine ⟨fun clause => ⟨⟨not_names_escape clause, fun text => unescapes_escape_iff⟩,
    ⟨parameters_escape clause, render_escape clause⟩, escape_doubled clause⟩, fun t r s h => ?_⟩
  obtain ⟨_, joined, _, _, -, -, -, -, -, rfl⟩ := t.preview_parts h
  refine ⟨joined.conditions, ?_⟩
  rw [List.map_append, List.map_map, List.map_map, Filter.Compilation.clauses, List.map_map]
  refine congrArg₂ (· ++ ·) (List.map_congr_left fun e _ => rfl) (List.map_congr_left fun p _ => ?_)
  exact congrArg (fun text => [Piece.text text]) (predicateText_eq t.dialect p)

/-- Colons, names behind them and backslashes before them, in values and in the name of a column. -/
theorem preview_clauses_verbatim_colons :
    let status : FieldRef := ⟨"orders", "status"⟩
    let t : Target := ⟨⟨[⟨"orders", "Orders", "orders",
        [⟨"status", "Status", .string, some "at:time", false, true, "TEXT"⟩], [], ""⟩]⟩,
      [⟨"orders", none, [⟨"at:time", "at:time", "TEXT", .text, [], false, true⟩]⟩], .postgresql, none⟩
    let r : PreviewRequest := ⟨["orders"], [status], [],
      [⟨none, status, .compare .eq, .value, some "a::b \\:c 5%", none, .string⟩,
        ⟨none, status, .search .contains, .value, some ":n\\:", none, .string⟩], [], 5⟩
    ∃ s, t.preview r = .ok s ∧ ∃ joined : List Equality, s.conditions.map (·.fragment t.dialect) =
      joined.map (fun e => [.text (e.text t.dialect)]) ++
        [[.text "\"orders\".\"at:time\" = 'a::b \\:c 5%%'"],
          [.text "\"orders\".\"at:time\" ILIKE '%%:n\\\\:%%' ESCAPE '\\'"]] := by
  intro status t r
  have hclauses : ((t.filters r).clauses (t.dialect == .postgresql)).map (driverText t.dialect) =
      ["\"orders\".\"at:time\" = 'a::b \\:c 5%%'",
        "\"orders\".\"at:time\" ILIKE '%%:n\\\\:%%' ESCAPE '\\'"] := by
    decide +kernel
  obtain ⟨s, hs⟩ : ∃ s, t.preview r = .ok s := ⟨_, rfl⟩
  obtain ⟨joined, hjoined⟩ := preview_clauses_verbatim.2 t r s hs
  refine ⟨s, hs, joined, hjoined.trans (congrArg _ ?_)⟩
  have htexts := congrArg (List.map fun text => [Piece.text text]) hclauses
  rwa [List.map_map] at htexts

end AdhocReport.Query
