import AdhocReport.Sql.Matching
import Mathlib.Data.List.Infix
set_option autoImplicit false

/-!
# SQL: what a pattern matches

The texts that a pattern matches, said without the items of a pattern: with any escape character, and
with letter case folded by any function on characters.  The matcher of patterns agrees, and letter case
may be folded in the pattern or at each comparison.
-/

namespace AdhocReport.Sql

/-- A text matches a pattern: a percent sign stands for any text, an underscore for any character, and
what follows the escape character for itself, as every other character does.  A character that stands for
itself is folded before it is compared. -/
inductive Like (escape : Char) (fold : Char → Char) : List Char → List Char → Prop
  | nil : Like escape fold [] []
  | escaped {c : Char} {pattern text : List Char} :
      Like escape fold pattern text → Like escape fold (escape :: c :: pattern) (fold c :: text)
  | anything {front pattern text : List Char} :
      '%' ≠ escape → Like escape fold pattern text → Like escape fold ('%' :: pattern) (front ++ text)
  | anyChar {c : Char} {pattern text : List Char} :
      '_' ≠ escape → Like escape fold pattern text → Like escape fold ('_' :: pattern) (c :: text)
  | char {c : Char} {pattern text : List Char} :
      c ∉ [escape, '%', '_'] → Like escape fold pattern text →
      Like escape fold (c :: pattern) (fold c :: text)

/-- The folding leaves alone the characters that have a sense in patterns: each of them is folded to
itself, and no other character is folded to one of them. -/
def FixesMarks (escape : Char) (fold : Char → Char) : Prop :=
  ∀ c, ∀ mark ∈ [escape, '%', '_'], fold c = mark ↔ c = mark

variable {escape : Char} {fold : Char → Char} {c : Char} {pattern text : List Char}

/-! ## Patterns taken apart at their first character -/

namespace Like

theorem nil_iff : Like escape fold [] text ↔ text = [] := by
  constructor
  · rintro ⟨⟩
    rfl
  · rintro rfl
    exact .nil

theorem escaped_iff :
    Like escape fold (escape :: c :: pattern) text ↔
      ∃ rest, text = fold c :: rest ∧ Like escape fold pattern rest := by
  constructor
  · intro h
    cases h with
    | escaped h => exact ⟨_, rfl, h⟩
    | anything hne => exact absurd rfl hne
    | anyChar hne => exact absurd rfl hne
    | char hplain => exact absurd List.mem_cons_self hplain
  · rintro ⟨rest, rfl, h⟩
    exact .escaped h

theorem anything_iff (hne : '%' ≠ escape) :
    Like escape fold ('%' :: pattern) text ↔
      ∃ front rest, text = front ++ rest ∧ Like escape fold pattern rest := by
  constructor
  · intro h
    cases h with
    | escaped => exact absurd rfl hne
    | anything _ h => exact ⟨_, _, rfl, h⟩
    | char hplain => simp at hplain
  · rintro ⟨front, rest, rfl, h⟩
    exact .anything hne h

theorem anyChar_iff (hne : '_' ≠ escape) :
    Like escape fold ('_' :: pattern) text ↔ ∃ d rest, text = d :: rest ∧ Like escape fold pattern rest := by
  constructor
  · intro h
    cases h with
    | escaped => exact absurd rfl hne
    | anyChar _ h => exact ⟨_, _, rfl, h⟩
    | char hplain => simp at hplain
  · rintro ⟨d, rest, rfl, h⟩
    exact .anyChar hne h

theorem char_iff (hplain : c ∉ [escape, '%', '_']) :
    Like escape fold (c :: pattern) text ↔ ∃ rest, text = fold c :: rest ∧ Like escape fold pattern rest := by
  constructor
  · intro h
    cases h with
    | escaped => simp at hplain
    | anything => simp at hplain
    | anyChar => simp at hplain
    | char _ h => exact ⟨_, rfl, h⟩
  · rintro ⟨rest, rfl, h⟩
    exact .char hplain h

/-- Nothing follows the escape character at the end of a pattern, and the pattern matches nothing. -/
theorem not_trailing : ¬ Like escape fold [escape] text := by
  intro h
  cases h with
  | anything hne => exact hne rfl
  | anyChar hne => exact hne rfl
  | char hplain => exact hplain List.mem_cons_self

/-- A percent sign alone matches every text. -/
theorem all (hne : '%' ≠ escape) (text : List Char) : Like escape fold ['%'] text :=
  (anything_iff hne).mpr ⟨text, [], (List.append_nil text).symm, .nil⟩

/-! ## Where letter case is folded -/

/-- A pattern may be folded before it is read, when its marks stay what they are. -/
theorem map_iff (hfold : FixesMarks escape fold) :
    Like escape id (pattern.map fold) text ↔ Like escape fold pattern text := by
  have hfixes : ∀ mark ∈ [escape, '%', '_'], fold mark = mark :=
    fun mark hmark => (hfold mark mark hmark).mpr rfl
  constructor
  · intro h
    generalize hfolded : pattern.map fold = folded at h
    induction h generalizing pattern with
    | nil =>
      rw [List.map_eq_nil_iff.mp hfolded]
      exact .nil
    | escaped _ ih =>
      obtain ⟨mark, tail, rfl, hmark, htail⟩ := List.map_eq_cons_iff.mp hfolded
      obtain ⟨c, rest, rfl, rfl, hrest⟩ := List.map_eq_cons_iff.mp htail
      rw [(hfold mark escape (by simp)).mp hmark]
      exact .escaped (ih hrest)
    | anything hne _ ih =>
      obtain ⟨mark, rest, rfl, hmark, hrest⟩ := List.map_eq_cons_iff.mp hfolded
      rw [(hfold mark '%' (by simp)).mp hmark]
      exact .anything hne (ih hrest)
    | anyChar hne _ ih =>
      obtain ⟨mark, rest, rfl, hmark, hrest⟩ := List.map_eq_cons_iff.mp hfolded
      rw [(hfold mark '_' (by simp)).mp hmark]
      exact .anyChar hne (ih hrest)
    | char hplain _ ih =>
      obtain ⟨c, rest, rfl, rfl, hrest⟩ := List.map_eq_cons_iff.mp hfolded
      refine .char (fun hmark => hplain ?_) (ih hrest)
      rwa [hfixes c hmark]
  · intro h
    induction h with
    | nil => exact .nil
    | escaped _ ih =>
      rw [List.map_cons, List.map_cons, hfixes escape (by simp)]
      exact .escaped ih
    | anything hne _ ih =>
      rw [List.map_cons, hfixes '%' (by simp)]
      exact .anything hne ih
    | anyChar hne _ ih =>
      rw [List.map_cons, hfixes '_' (by simp)]
      exact .anyChar hne ih
    | @char c _ _ hplain _ ih =>
      refine .char (fun hmark => hplain ?_) ih
      rwa [← (hfold c (fold c) hmark).mp rfl] at hmark

end Like

/-! ## The matcher -/

theorem anyRest_iff {test : List Char → Bool} :
    anyRest test text = true ↔ ∃ front rest, text = front ++ rest ∧ test rest = true := by
  induction text with
  | nil => simp [anyRest, and_assoc]
  | cons c text ih =>
    rw [anyRest, Bool.or_eq_true, ih]
    constructor
    · rintro (h | ⟨front, rest, rfl, h⟩)
      · exact ⟨[], c :: text, rfl, h⟩
      · exact ⟨c :: front, rest, rfl, h⟩
    · rintro ⟨front, rest, hsplit, h⟩
      cases front with
      | nil => exact .inl (hsplit ▸ h)
      | cons d front => exact .inr ⟨front, rest, (List.cons.inj hsplit).2, h⟩

theorem itemsMatch_char_iff {items : List PatternItem} :
    itemsMatch (.char c :: items) text = true ↔ ∃ rest, text = c :: rest ∧ itemsMatch items rest = true := by
  cases text with
  | nil => simp [itemsMatch]
  | cons d text => simp [itemsMatch, eq_comm (a := c), and_assoc]

theorem itemsMatch_anyChar_iff {items : List PatternItem} :
    itemsMatch (.anyChar :: items) text = true ↔ ∃ d rest, text = d :: rest ∧ itemsMatch items rest = true := by
  cases text <;> simp [itemsMatch, and_assoc]

theorem itemsMatch_anything_iff {items : List PatternItem} :
    itemsMatch (.anything :: items) text = true ↔
      ∃ front rest, text = front ++ rest ∧ itemsMatch items rest = true := by
  rw [itemsMatch, anyRest_iff]

theorem patternMatches_iff_exists :
    patternMatches pattern text = true ↔
      ∃ items, patternItems? pattern = some items ∧ itemsMatch items text = true := by
  unfold patternMatches
  cases patternItems? pattern <;> simp

theorem exists_items_cons_iff {item : PatternItem} {items? : Option (List PatternItem)} :
    (∃ items, items?.map (item :: ·) = some items ∧ itemsMatch items text = true) ↔
      ∃ items, items? = some items ∧ itemsMatch (item :: items) text = true := by
  cases items? <;> simp

/-- The matcher finds the texts that a pattern matches with a backslash as the escape character. -/
theorem patternMatches_iff : patternMatches pattern text = true ↔ Like '\\' id pattern text := by
  rw [patternMatches_iff_exists]
  fun_induction patternItems? pattern generalizing text with
  | case1 => cases text <;> simp [itemsMatch, Like.nil_iff]
  | case2 => simp [Like.not_trailing]
  | case3 c rest ih =>
    simp only [exists_items_cons_iff, itemsMatch_char_iff, Like.escaped_iff, ← ih, id]
    grind
  | case4 rest hescape ih =>
    simp only [exists_items_cons_iff, itemsMatch_anything_iff, Like.anything_iff hescape, ← ih]
    grind
  | case5 rest hescape _ ih =>
    simp only [exists_items_cons_iff, itemsMatch_anyChar_iff, Like.anyChar_iff hescape, ← ih]
    grind
  | case6 c rest hescape hanything hanyChar ih =>
    have hplain : c ∉ ['\\', '%', '_'] := by simp [hescape, hanything, hanyChar]
    simp only [exists_items_cons_iff, itemsMatch_char_iff, Like.char_iff hplain, ← ih, id]
    grind

end AdhocReport.Sql
