import AdhocReport.Query.SingleSelect
import AdhocReport.Proofs.Query.Preview
import AdhocReport.Proofs.Sql.Layout
set_option autoImplicit false

/-!
# Queries: the guard and the statements of previews

The guard is there for texts that are more than one query, and the text of a preview is one.  The guard
reads it as a query, and as one statement unless a semicolon stands behind a place where its reading and
that of the writer may part: a backslash before a mark that ends a quoted text, as every text search writes
one, or a minus sign before a negative number.
-/

namespace AdhocReport.Query

open AdhocReport.Sql
open Outcome (exists_of_mem_right)

/-! ## Texts that begin with `SELECT` -/

/-- The word that begins a query. -/
def selectWord : List Char := ['S', 'E', 'L', 'E', 'C', 'T']

/-- The guard sees the word that begins a query. -/
theorem lexemes_select (fuel : Nat) {more : List Char} (h : (more.dropWhile Text.isBlank).head? ≠ some '.') :
    ∃ ls, lexemes (fuel + 1) none ("SELECT ".toList ++ more) = .word selectWord :: ls := by
  have hname : isNameUse none (' ' :: more) = false := by
    have hafter : (' ' :: more).dropWhile Text.isBlank = more.dropWhile Text.isBlank := rfl
    simp [isNameUse, hafter, h]
  have hnext : Lexeme.next none 'S' (['E', 'L', 'E', 'C', 'T', ' '] ++ more) =
      (if isNameUse none (' ' :: more) then .other else .word selectWord, ' ' :: more) := rfl
  have htext : "SELECT ".toList ++ more = 'S' :: (['E', 'L', 'E', 'C', 'T', ' '] ++ more) := rfl
  rw [htext, lexemes, hnext, hname]
  exact ⟨_, rfl⟩

variable {text : String} {ls : List Lexeme}

/-- A text whose first word is `SELECT` is at most too many statements. -/
theorem statementFault_of_select (h : lexemes text.toList.length none text.toList = .word selectWord :: ls) :
    statementFault text = none ∨ ∃ n, 2 ≤ n ∧ statementFault text = some (.statementCount n) := by
  obtain ⟨first, others, hstatements⟩ := statements_head h
  have hselect : isSelect (.word selectWord :: first) = true := rfl
  rw [statementFault, hstatements]
  cases others with
  | nil => exact .inl (if_pos hselect)
  | cons second others => exact .inr ⟨_, by simp, rfl⟩

theorem statementFault_eq_none (h : lexemes text.toList.length none text.toList = .word selectWord :: ls)
    (hsemicolon : .semicolon ∉ Lexeme.word selectWord :: ls) : statementFault text = none := by
  have hselect : isSelect (.word selectWord :: ls) = true := rfl
  rw [statementFault, statements_of_notMem h hsemicolon]
  exact if_pos hselect

/-- The text of a statement with an output begins with the word of a query. -/
theorem lexemes_inlineText (s : Statement) (d : Dialect) (h : s.outputs ≠ []) :
    ∃ ls, lexemes (s.inlineText d).toList.length none (s.inlineText d).toList = .word selectWord :: ls := by
  obtain ⟨o, rest, houtputs⟩ := List.exists_cons_of_ne_nil h
  have hopens : Opens (Json.joined ", " (s.outputs.map (Statement.outputText d)) ++ s.tailText d) := by
    have hfirst := Statement.opens_outputText d o
    rw [houtputs, List.map_cons]
    cases rest with
    | nil => exact hfirst.append _
    | cons p rest => exact ((hfirst.append _).append _).append _
  rw [Statement.inlineText_eq]
  generalize Json.joined ", " (s.outputs.map (Statement.outputText d)) ++ s.tailText d = more at hopens
  have hpoint : (more.toList.dropWhile Text.isBlank).head? ≠ some '.' := by
    rw [Opens] at hopens
    cases hmore : more.toList with
    | nil => simp
    | cons c cs =>
      simp only [hmore, List.head?_cons, Option.any_some, Bool.and_eq_true, Bool.not_eq_true', bne_iff_ne] at hopens
      rw [List.dropWhile_cons_of_neg (by rw [hopens.1]; decide), List.head?_cons]
      exact fun heq => hopens.2 (Option.some.inj heq)
  have hlength : ("SELECT " ++ more).toList.length = 6 + more.toList.length + 1 := by
    have hselect : "SELECT ".toList.length = 7 := rfl
    rw [String.toList_append, List.length_append, hselect]
    omega
  rw [hlength, String.toList_append]
  exact lexemes_select _ hpoint

/-! ## Previews -/

variable {t : Target} {r : PreviewRequest} {s : Statement}

theorem Target.outputs_of_preview (h : t.preview r = .ok s) : s.outputs ≠ [] := by
  obtain ⟨_, _, _, _, -, -, -, -, hsome, rfl⟩ := t.preview_parts h
  exact hsome

/-- The conditions of a preview are those of joins and of valid filters. -/
theorem Target.conditions_of_preview (h : t.preview r = .ok s) :
    ∀ c ∈ s.conditions, (∃ e, c = .equal e) ∨
      ∃ f aliases p, c = .predicate p ∧ Filter.predicateOf f aliases t.registry = .ok p := by
  obtain ⟨_, joined, _, _, -, -, -, -, -, rfl⟩ := t.preview_parts h
  intro c hc
  rcases List.mem_append.mp hc with hc | hc
  · obtain ⟨e, -, rfl⟩ := List.mem_map.mp hc
    exact .inl ⟨e, rfl⟩
  · obtain ⟨p, hp, rfl⟩ := List.mem_map.mp hc
    obtain ⟨f, -, hf⟩ := exists_of_mem_right (Filter.compileFrom_predicates 1 r.filters) hp
    exact .inr ⟨f, _, p, rfl, hf⟩

/-- Nothing in a preview needs a parameter, and each of its conditions can stand beside the others. -/
theorem Target.preview_conditions (h : t.preview r = .ok s) (d : Dialect) :
    s.text d = s.inlineText d ∧ ∀ c ∈ s.conditions, Contained ((c.fragment d).inline d) := by
  have hconditions := t.conditions_of_preview h
  constructor
  · rw [Statement.text, if_neg]
    rw [List.any_eq_true]
    rintro ⟨c, hc, hneeds⟩
    rcases hconditions c hc with ⟨e, rfl⟩ | ⟨f, aliases, p, rfl, -⟩ <;> cases hneeds
  · intro c hc
    rcases hconditions c hc with ⟨e, rfl⟩ | ⟨f, aliases, p, rfl, hp⟩
    · exact (Fragment.contained_text (e.contained_text d)).inline d
    · exact (Fragment.contained_text (contained_predicateText d (contained_clause hp _))).inline d

/-- Whatever the values of its filters hold, the guard takes the statement of a preview for a query, if for
too many statements.  It lets the statement pass if no semicolon stands behind the first place where the
guard may leave the reading of the writer, and there is no such place without a backslash and without two
hyphens side by side. -/
theorem preview_passes_guard (t : Target) (r : PreviewRequest) (s : Statement) (h : t.preview r = .ok s) :
    (statementFault (s.text t.dialect) = none ∨
      ∃ n, 2 ≤ n ∧ statementFault (s.text t.dialect) = some (.statementCount n)) ∧
    (';' ∉ misread none (s.text t.dialect).toList →
      singleSelect (s.text t.dialect) = .ok (s.text t.dialect)) ∧
    ('\\' ∉ (s.text t.dialect).toList → ¬ ['-', '-'] <:+: (s.text t.dialect).toList →
      singleSelect (s.text t.dialect) = .ok (s.text t.dialect)) := by
  obtain ⟨htext, hconditions⟩ := t.preview_conditions h t.dialect
  obtain ⟨ls, hselect⟩ := lexemes_inlineText s t.dialect (t.outputs_of_preview h)
  have hwritten := s.contained_inlineText t.dialect hconditions none
  have hpasses (hclear : ';' ∉ misread none (s.inlineText t.dialect).toList) :
      singleSelect (s.inlineText t.dialect) = .ok (s.inlineText t.dialect) := by
    have hsemicolon := semicolon_notMem_lexemes (s.inlineText t.dialect).toList.length (.inl ⟨hwritten, hclear⟩)
    rw [hselect] at hsemicolon
    rw [singleSelect, statementFault_eq_none hselect hsemicolon]
  rw [htext]
  refine ⟨statementFault_of_select hselect, hpasses, fun hbackslash hdashes => hpasses ?_⟩
  rw [misread_eq_nil hbackslash hdashes]
  exact List.not_mem_nil

/-- A semicolon in a value before a search passes. -/
theorem semicolon_passes_guard :
    let status : FieldRef := ⟨"orders", "status"⟩
    let t : Target := ⟨⟨[⟨"orders", "Orders", "orders",
        [⟨"status", "Status", .string, none, false, true, "TEXT"⟩], [], ""⟩]⟩,
      [⟨"orders", none, [⟨"status", "status", "TEXT", .text, [], false, true⟩]⟩], .sqlite, none⟩
    let r : PreviewRequest := ⟨["orders"], [status], [],
      [⟨none, status, .compare .eq, .value, some "it's; -- \\ \"", none, .string⟩,
        ⟨none, status, .search .contains, .value, some "a\\'", none, .string⟩], [], 5⟩
    ∃ s, t.preview r = .ok s ∧ singleSelect (s.text t.dialect) = .ok (s.text t.dialect) ∧
      ';' ∈ (s.text t.dialect).toList := by
  intro status t r
  have hclear : (t.preview r).toOption.map (fun s =>
      decide (';' ∉ misread none (s.text t.dialect).toList ∧ ';' ∈ (s.text t.dialect).toList)) = some true := by
    decide +kernel
  cases hpreview : t.preview r with
  | error f =>
    rw [hpreview] at hclear
    cases hclear
  | ok s =>
    rw [hpreview] at hclear
    obtain ⟨hclear, hmem⟩ := of_decide_eq_true (Option.some.inj hclear)
    exact ⟨s, rfl, (preview_passes_guard t r s hpreview).2.1 hclear, hmem⟩

/-- A semicolon in a value behind a search does not pass: the backslash of the search stands before a mark. -/
theorem semicolon_behind_search :
    let status : FieldRef := ⟨"orders", "status"⟩
    let t : Target := ⟨⟨[⟨"orders", "Orders", "orders",
        [⟨"status", "Status", .string, none, false, true, "TEXT"⟩], [], ""⟩]⟩,
      [⟨"orders", none, [⟨"status", "status", "TEXT", .text, [], false, true⟩]⟩], .sqlite, none⟩
    let r : PreviewRequest := ⟨["orders"], [status], [],
      [⟨none, status, .search .contains, .value, some "a", none, .string⟩,
        ⟨none, status, .compare .eq, .value, some "x;y", none, .string⟩], [], 5⟩
    (t.preview r).toOption.map (fun s => statementFault (s.text t.dialect)) = some (some (.statementCount 2)) := by
  decide +kernel

end AdhocReport.Query
