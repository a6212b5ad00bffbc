import AdhocReport.Proofs.Filter.Clause
import AdhocReport.Proofs.Sql.Matching
import AdhocReport.Sql.Selection
set_option autoImplicit false

/-!
# Filters: searches are literal

The clause of a search, read as tokens and matched as SQL matches patterns, says of every text that it
contains, starts with or ends with the value, letter case folded.  No character of the value has another
sense than itself in the pattern.  Letter case is folded by any function on characters that leaves the
marks of patterns alone, so that nothing depends on the letters a database knows.
-/

namespace AdhocReport.Filter

open AdhocReport.Schema
open AdhocReport.Sql (Like FixesMarks tokens?)

/-- The text contains, starts with or ends with the value. -/
def Search.Finds (s : Search) (value text : List Char) : Prop :=
  match s with
  | .contains => value <:+: text
  | .startsWith => value <+: text
  | .endsWith => value <:+ text

/-- What the tokens of a search of a target say when the target is a text.  The pattern is the literal
after `LIKE`, its escape character the one after `ESCAPE`; `ILIKE` folds letter case where it compares
characters, `LOWER` folds the whole text and the whole pattern. -/
inductive Accepts (target : List Sql.Token) (fold : Char → Char) (text : List Char) : List Sql.Token → Prop
  | ilike {pattern mark : String} {escape : Char} :
      mark.toList = [escape] → Like escape fold pattern.toList (text.map fold) →
      Accepts target fold text (target ++ [.word "ILIKE", .literal pattern, .word "ESCAPE", .literal mark])
  | lower {pattern mark : String} {escape : Char} :
      mark.toList = [escape] → Like escape id (pattern.toList.map fold) (text.map fold) →
      Accepts target fold text
        (.word "LOWER" :: .symbol "(" :: (target ++
          [.symbol ")", .word "LIKE", .word "LOWER", .symbol "(", .literal pattern, .symbol ")",
            .word "ESCAPE", .literal mark]))

variable {fold : Char → Char} {value pattern text : List Char}

/-! ## Patterns of searches -/

/-- A character with a backslash before it if it is the mark. -/
def markEscaped (mark c : Char) : List Char := if c = mark then ['\\', c] else [c]

/-- A value may be escaped one mark after the other, if the backslash comes first. -/
theorem escapePattern_eq_replacements (value : List Char) :
    escapePattern value =
      ((value.flatMap (markEscaped '\\')).flatMap (markEscaped '%')).flatMap (markEscaped '_') := by
  rw [escapePattern_eq_flatMap, List.flatMap_assoc, List.flatMap_assoc]
  refine congrArg (value.flatMap ·) (funext fun c => ?_)
  by_cases hbackslash : c = '\\'
  · rw [hbackslash]
    rfl
  · by_cases hpercent : c = '%'
    · rw [hpercent]
      rfl
    · simp [patternChar, markEscaped, hbackslash, hpercent]

/-- An escaped value at the front of a pattern matches its folded characters and nothing else. -/
theorem like_escapePattern :
    Like '\\' fold (escapePattern value ++ pattern) text ↔
      ∃ rest, text = value.map fold ++ rest ∧ Like '\\' fold pattern rest := by
  induction value generalizing text with
  | nil => simp [escapePattern]
  | cons c value ih =>
    -- escaped or without a sense of its own, the character stands for itself alone
    have hstep : Like '\\' fold (escapePattern (c :: value) ++ pattern) text ↔
        ∃ tail, text = fold c :: tail ∧ Like '\\' fold (escapePattern value ++ pattern) tail := by
      rw [escapePattern]
      split
      · exact Like.escaped_iff
      · next hplain => exact Like.char_iff (by simpa using hplain)
    rw [hstep]
    constructor
    · rintro ⟨tail, rfl, htail⟩
      obtain ⟨rest, rfl, hrest⟩ := ih.mp htail
      exact ⟨rest, rfl, hrest⟩
    · rintro ⟨rest, rfl, hrest⟩
      exact ⟨_, rfl, ih.mpr ⟨rest, rfl, hrest⟩⟩

theorem like_patternOf (s : Search) :
    Like '\\' fold (patternOf s value) text ↔ s.Finds (value.map fold) text := by
  have hpercent : '%' ≠ '\\' := by decide
  cases s with
  | contains =>
    rw [patternOf, List.cons_append, Like.anything_iff hpercent]
    constructor
    · rintro ⟨front, rest, rfl, hrest⟩
      obtain ⟨back, rfl, -⟩ := like_escapePattern.mp hrest
      exact ⟨front, back, List.append_assoc _ _ _⟩
    · rintro ⟨front, back, rfl⟩
      exact ⟨front, value.map fold ++ back, List.append_assoc _ _ _,
        like_escapePattern.mpr ⟨back, rfl, .all hpercent back⟩⟩
  | startsWith =>
    rw [patternOf, like_escapePattern]
    constructor
    · rintro ⟨back, rfl, -⟩
      exact ⟨back, rfl⟩
    · rintro ⟨back, rfl⟩
      exact ⟨back, rfl, .all hpercent back⟩
  | endsWith =>
    rw [patternOf, Like.anything_iff hpercent]
    constructor
    · rintro ⟨front, rest, rfl, hrest⟩
      rw [← List.append_nil (escapePattern value), like_escapePattern] at hrest
      obtain ⟨back, rfl, hback⟩ := hrest
      rw [Like.nil_iff.mp hback, List.append_nil]
      exact ⟨front, rfl⟩
    · rintro ⟨front, rfl⟩
      refine ⟨front, _, rfl, ?_⟩
      rw [← List.append_nil (escapePattern value), like_escapePattern]
      exact ⟨[], (List.append_nil _).symm, .nil⟩

/-! ## Clauses of searches -/

/-- The column that a search looks at does not begin with `LOWER`, so that the two forms are told apart. -/
theorem targetTokens_append_ne (column : ClauseColumn) (ts us : List Sql.Token) :
    targetTokens column.type column.tokens ++ ts ≠ .word "LOWER" :: us := by
  unfold targetTokens ClauseColumn.tokens
  split <;> simp

/-- Both forms look for the pattern with a backslash as the escape character. -/
theorem accepts_searchTokens (hfold : FixesMarks '\\' fold) (column : ClauseColumn) (pattern : String)
    (postgres : Bool) :
    Accepts (targetTokens column.type column.tokens) fold text
        (searchTokens postgres column.type column.tokens pattern) ↔
      Like '\\' fold pattern.toList (text.map fold) := by
  have hmark : "\\".toList = ['\\'] := rfl
  cases postgres with
  | true =>
    rw [searchTokens, if_pos rfl]
    constructor
    · intro h
      generalize hts : targetTokens column.type column.tokens ++ _ = ts at h
      cases h with
      | ilike hmark h =>
        simp only [List.append_cancel_left_eq, List.cons.injEq, Sql.Token.literal.injEq, and_true,
          true_and] at hts
        obtain ⟨rfl, rfl⟩ := hts
        cases hmark
        exact h
      | lower => exact absurd hts (targetTokens_append_ne column _ _)
    · exact .ilike hmark
  | false =>
    rw [searchTokens, if_neg (by decide), ← Like.map_iff hfold]
    constructor
    · intro h
      generalize hts : Sql.Token.word "LOWER" :: _ = ts at h
      cases h with
      | ilike => exact absurd hts.symm (targetTokens_append_ne column _ _)
      | lower hmark h =>
        simp only [List.append_cancel_left_eq, List.cons.injEq, Sql.Token.literal.injEq, and_true,
          true_and] at hts
        obtain ⟨rfl, rfl⟩ := hts
        cases hmark
        exact h
    · exact .lower hmark

/-! ## Letter case of ASCII -/

theorem fixesMarks_toLower : FixesMarks '\\' Char.toLower := by
  intro c mark hmark
  unfold Char.toLower
  split
  · next hcapital =>
    obtain ⟨hA, hZ⟩ := hcapital
    have hA : 65 ≤ c.val.toNat := UInt32.le_iff_toNat_le.mp hA
    have hZ : c.val.toNat ≤ 90 := UInt32.le_iff_toNat_le.mp hZ
    have hmarks : mark.val.toNat = 92 ∨ mark.val.toNat = 37 ∨ mark.val.toNat = 95 := by
      simp only [List.mem_cons, List.not_mem_nil, or_false] at hmark
      rcases hmark with rfl | rfl | rfl <;> decide
    have hlower : (c.val + ('a'.val - 'A'.val)).toNat = c.val.toNat + 32 := by
      have hshift : ('a'.val - 'A'.val).toNat = 32 := by decide
      rw [UInt32.toNat_add]
      omega
    constructor
    · rintro rfl
      simp only [hlower] at hmarks
      omega
    · rintro rfl
      omega
  · rfl

/-! ## What a search says of texts and of rows -/

/-- The clause of a search says of every text that it contains, starts with or ends with the value, letter
case folded: percent signs, underscores and backslashes of the value stand for themselves.  Folding has to fix the
marks in both directions: it leaves the percent sign, the underscore and the backslash as they are, and turns no other
character into one of them. -/
theorem searchClause_literal (hfold : FixesMarks '\\' fold) (column : ClauseColumn) (s : Search)
    (value : String) (postgres : Bool) :
    ∃ ts, tokens? (searchClause column s value postgres) = some ts ∧
      ∀ text, Accepts (targetTokens column.type column.tokens) fold text ts ↔
        s.Finds (value.toList.map fold) (text.map fold) := by
  refine ⟨_, (searchClause_stands column s value postgres).tokens?_eq, fun text => ?_⟩
  rw [accepts_searchTokens hfold, searchedPattern_eq, String.toList_ofList, like_patternOf]

theorem searchClause_literal_marks :
    let column : ClauseColumn := ⟨"orders", "customer_name", .string⟩
    FixesMarks '\\' Char.toLower ∧
      ∃ ts, tokens? (searchClause column .startsWith "50%_\\Off" false) = some ts ∧
        ∀ text, Accepts (targetTokens .string column.tokens) Char.toLower text ts ↔
          Search.startsWith.Finds "50%_\\off".toList (text.map Char.toLower) := by
  intro column
  refine ⟨fixesMarks_toLower, ?_⟩
  exact searchClause_literal fixesMarks_toLower column .startsWith "50%_\\Off" false

/-- If letter case turned a letter into a mark, the letter would have the sense of the mark in the form
with `LOWER`. -/
example :
    let fold : Char → Char := fun c => if c = 'a' then '%' else c
    Like '\\' id ((patternOf .contains ['a']).map fold) (['b'].map fold) ∧
      ¬ Search.contains.Finds (['a'].map fold) (['b'].map fold) := by
  intro fold
  have hpercent : '%' ≠ '\\' := by decide
  constructor
  · refine (Like.anything_iff hpercent).mpr ⟨[], ['b'], rfl, ?_⟩
    exact (Like.anything_iff hpercent).mpr ⟨[], ['b'], rfl, .all hpercent ['b']⟩
  · change ¬ ['%'] <:+: ['b']
    decide

/-- A row satisfies a search when its column holds a value whose text, letter case of ASCII left aside,
contains, starts with or ends with the value that is looked for. -/
theorem search_holds_iff (types : String → String → ColumnType) (r : Sql.Row) (column : ClauseColumn)
    (s : Search) (value : String) :
    Sql.predicateHolds types r (.search column s value) = true ↔
      (r column.tableAlias column.name).isNull = false ∧
        s.Finds (Sql.lowerText value) (Sql.lowerText (r column.tableAlias column.name).written) := by
  rw [Sql.predicateHolds, Sql.likeValue, Bool.and_eq_true, Bool.not_eq_true', Sql.patternMatches_iff,
    Sql.lowerText, String.toList_ofList, Like.map_iff fixesMarks_toLower, like_patternOf]
  rfl

end AdhocReport.Filter
