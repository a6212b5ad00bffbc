import AdhocReport.Sql.Statement
set_option autoImplicit false

/-!
# SQL: texts that stand for themselves

A text that is handed over as a part of a statement is read for the parameters that it names, and for the
backslashes that escape its colons.  Both readings are stated here as relations: a name is anything behind a
colon that may stand before one, so that no reader finds more names.  With a backslash before each of its
colons a text names no parameter, and what is written for it is the text as it was.
-/

namespace AdhocReport.Sql

namespace Template

open AdhocReport.Text

variable {cs name text : List Char}

/-- The text has the name behind a colon, and the colon stands after no colon, backslash or word character. -/
def Names (text name : List Char) : Prop :=
  ∃ front back, text = front ++ ':' :: (name ++ back) ∧ name ≠ [] ∧ (∀ c ∈ name, isNameChar c = true) ∧
    ∀ c ∈ front.getLast?, c ≠ ':' ∧ c ≠ '\\' ∧ isWord c = false

/-- A text and what is written for it, from left to right: a backslash, a colon and any name characters are
written without the backslash, and every other character is kept. -/
inductive Unescapes : List Char → List Char → Prop
  | nil : Unescapes [] []
  | colon {name rest text : List Char} : (∀ c ∈ name, isNameChar c = true) → Unescapes rest text →
      Unescapes ('\\' :: ':' :: (name ++ rest)) (':' :: (name ++ text))
  | keep {c : Char} {rest text : List Char} : ¬ (c = '\\' ∧ rest.head? = some ':') → Unescapes rest text →
      Unescapes (c :: rest) (c :: text)

/-! ## Escaped texts -/

theorem escape_colon (cs : List Char) : escape (':' :: cs) = '\\' :: ':' :: escape cs := if_pos rfl

theorem escape_of_ne {c : Char} (hc : c ≠ ':') (cs : List Char) : escape (c :: cs) = c :: escape cs := if_neg hc

/-- An escaped text begins with an escaped colon or with another character of the text. -/
theorem escape_eq_cons {c : Char} {rest : List Char} (h : escape cs = c :: rest) :
    (∃ back, cs = ':' :: back ∧ c = '\\' ∧ rest = ':' :: escape back) ∨
      ∃ back, cs = c :: back ∧ c ≠ ':' ∧ rest = escape back := by
  cases cs with
  | nil => cases h
  | cons d cs =>
    by_cases hd : d = ':'
    · rw [hd, escape_colon] at h
      obtain ⟨rfl, rfl⟩ := List.cons.inj h
      exact .inl ⟨cs, by rw [hd], rfl, rfl⟩
    · rw [escape_of_ne hd] at h
      obtain ⟨rfl, rfl⟩ := List.cons.inj h
      exact .inr ⟨cs, rfl, hd, rfl⟩

theorem escape_ne_colon {rest : List Char} : escape cs ≠ ':' :: rest := by
  intro h
  rcases escape_eq_cons h with ⟨_, -, hc, -⟩ | ⟨_, -, hc, -⟩
  · exact absurd hc (by decide)
  · exact hc rfl

/-- Every colon of an escaped text stands after a backslash. -/
theorem backslash_before_colon {front back : List Char} (h : escape cs = front ++ ':' :: back) :
    ∃ before, front = before ++ ['\\'] := by
  induction cs generalizing front with
  | nil => simp [escape] at h
  | cons c cs ih =>
    rcases front with _ | ⟨a, front⟩
    · exact absurd h escape_ne_colon
    · rcases escape_eq_cons h with ⟨_, hcs, rfl, hrest⟩ | ⟨_, hcs, -, hrest⟩ <;> cases hcs
      · rcases front with _ | ⟨b, front⟩
        · exact ⟨[], rfl⟩
        · obtain ⟨before, rfl⟩ := ih (List.cons.inj hrest).2.symm
          exact ⟨'\\' :: b :: before, rfl⟩
      · obtain ⟨before, rfl⟩ := ih hrest.symm
        exact ⟨c :: before, rfl⟩

/-- Name characters are not escaped. -/
theorem escape_eq_append (hname : ∀ c ∈ name, isNameChar c = true) {rest : List Char} (h : escape cs = name ++ rest) :
    ∃ back, cs = name ++ back ∧ escape back = rest := by
  induction name generalizing cs with
  | nil => exact ⟨cs, rfl, h⟩
  | cons n name ih =>
    obtain ⟨hn, hrun⟩ := List.forall_mem_cons.mp hname
    rcases escape_eq_cons h with ⟨_, -, rfl, -⟩ | ⟨cs, rfl, -, hrest⟩
    · exact absurd hn (by decide)
    · obtain ⟨back, rfl, hback⟩ := ih hrun hrest.symm
      exact ⟨back, rfl, hback⟩

/-! ## Parameters -/

theorem not_names_escape (cs name : List Char) : ¬ Names (escape cs) name := by
  rintro ⟨front, back, htext, -, -, hguard⟩
  obtain ⟨before, rfl⟩ := backslash_before_colon htext
  exact (hguard '\\' (by simp)).2.1 rfl

/-- The parameters that are found in the rest of a text are names in the whole of it. -/
theorem names_of_mem_parameters (passed : List Char) (h : name ∈ parameters passed.getLast? cs) :
    Names (passed ++ cs) name := by
  induction cs generalizing passed with
  | nil => cases h
  | cons c cs ih =>
    have hrest (hmem : name ∈ parameters (some c) cs) : Names (passed ++ c :: cs) name := by
      have hlast : (passed ++ [c]).getLast? = some c := List.getLast?_concat
      rw [List.append_cons]
      exact ih (passed ++ [c]) (hlast.symm ▸ hmem)
    rw [parameters] at h
    split at h
    · rename_i hopens
      rcases List.mem_cons.mp h with rfl | hmem
      · simp only [Bool.and_eq_true, decide_eq_true_eq, Bool.not_eq_true', List.isEmpty_eq_false_iff] at hopens
        obtain ⟨⟨rfl, hguard⟩, hname⟩ := hopens
        refine ⟨passed, cs.dropWhile isNameChar, ?_, hname, List.all_eq_true.mp List.all_takeWhile, fun b hb => ?_⟩
        · rw [List.takeWhile_append_dropWhile]
        · rw [Option.mem_def.mp hb, Option.any_some] at hguard
          simp only [guardsColon, isNameChar, Bool.or_eq_false_iff, beq_eq_false_iff_ne] at hguard
          exact ⟨hguard.1.1, hguard.1.2, hguard.2.1⟩
      · exact hrest hmem
    · exact hrest h

theorem parameters_escape (cs : List Char) : parameters none (escape cs) = [] :=
  List.eq_nil_iff_forall_not_mem.mpr fun name hmem =>
    not_names_escape cs name (names_of_mem_parameters [] hmem)

/-! ## Writing -/

theorem Unescapes.eq_of_escape (h : Unescapes (escape cs) text) : text = cs := by
  generalize hescape : escape cs = escaped at h
  induction h generalizing cs with
  | nil =>
    cases cs with
    | nil => rfl
    | cons c cs =>
      rw [escape] at hescape
      split at hescape <;> cases hescape
  | @colon name rest text hname _ ih =>
    rcases escape_eq_cons hescape with ⟨cs, rfl, -, hrest⟩ | ⟨cs, -, -, hrest⟩
    · obtain ⟨back, rfl, hback⟩ := escape_eq_append hname (List.cons.inj hrest).2.symm
      rw [ih hback]
    · exact absurd hrest.symm escape_ne_colon
  | @keep c rest text hkeep _ ih =>
    rcases escape_eq_cons hescape with ⟨cs, -, hc, hrest⟩ | ⟨cs, rfl, -, hrest⟩
    · exact absurd ⟨hc, by rw [hrest]; rfl⟩ hkeep
    · rw [ih hrest.symm]

theorem unescapes_escape (cs : List Char) : Unescapes (escape cs) cs := by
  induction cs with
  | nil => exact .nil
  | cons c cs ih =>
    by_cases hc : c = ':'
    · have hcolon : Unescapes ('\\' :: ':' :: ([] ++ escape cs)) (':' :: ([] ++ cs)) := .colon nofun ih
      rwa [hc, escape_colon]
    · rw [escape_of_ne hc]
      refine .keep (fun h => ?_) ih
      obtain ⟨rest, hrest⟩ := List.head?_eq_some_iff.mp h.2
      exact escape_ne_colon hrest

/-- What is written for an escaped text is the text. -/
theorem unescapes_escape_iff : Unescapes (escape cs) text ↔ text = cs :=
  ⟨Unescapes.eq_of_escape, fun h => h ▸ unescapes_escape cs⟩

theorem opensEscape_escape (cs : List Char) : opensEscape (escape cs) = false := by
  unfold opensEscape
  split
  · rename_i heq
    exact absurd heq escape_ne_colon
  · rfl

/-- The name characters behind an escaped colon are not followed by a colon that has no backslash. -/
theorem head?_dropWhile_escape (cs : List Char) : ((escape cs).dropWhile isNameChar).head? ≠ some ':' := by
  induction cs with
  | nil => exact nofun
  | cons c cs ih =>
    by_cases hc : c = ':'
    · rw [hc, escape_colon, List.dropWhile_cons_of_neg (by decide)]
      exact fun h => absurd (Option.some.inj h) (by decide)
    · rw [escape_of_ne hc]
      by_cases hname : isNameChar c = true
      · rwa [List.dropWhile_cons_of_pos hname]
      · rw [List.dropWhile_cons_of_neg hname]
        exact fun h => hc (Option.some.inj h)

/-- A text whose colons are escaped stands for itself. -/
theorem render_escape (cs : List Char) : render (escape cs) = cs := by
  induction cs with
  | nil => rfl
  | cons c cs ih =>
    by_cases hc : c = ':'
    · have hopens : opensEscape (':' :: escape cs) = true := bne_iff_ne.mpr (head?_dropWhile_escape cs)
      rw [hc, escape_colon, render, hopens, if_pos (by decide), render, if_neg (by simp), ih]
    · rw [escape_of_ne hc, render, opensEscape_escape, if_neg (by simp), ih]

/-- Percent signs may be doubled before the colons are escaped or after it. -/
theorem escape_doubled (cs : List Char) : escape (doubled '%' cs) = doubled '%' (escape cs) := by
  induction cs with
  | nil => rfl
  | cons c cs ih =>
    by_cases hpercent : c = '%'
    · simp [hpercent, doubled, escape, ih]
    · by_cases hcolon : c = ':' <;> simp [hpercent, hcolon, doubled, escape, ih]

end Template

theorem predicateText_eq (d : Dialect) (p : Filter.Predicate) :
    predicateText d p = driverText d (p.clause (d == .postgresql)) := by
  rw [predicateText, Template.render_escape, String.ofList_toList]

end AdhocReport.Sql
