import AdhocReport.Filter.Clause
import AdhocReport.Json.Shown
import AdhocReport.Proofs.Decimal.Numeral
import AdhocReport.Proofs.Outcome
import AdhocReport.Proofs.Sql.Token
set_option autoImplicit false

/-!
# Filters: the tokens of clauses

Joined clauses read as the tokens of each clause with the word `AND` between them, and a clause reads as
the tokens that its filter asks for, whatever characters its names and values have.  A number is written
without quotes: it reads as numbers, words, points and signs that spell it.
-/

namespace AdhocReport.Filter

open AdhocReport.Schema
open AdhocReport.Decimal (SignText sign?_spelled)
open AdhocReport.Sql (Reads Stands Mode tokens?)
open Outcome (bind_eq_ok)

/-! ## The tokens that a filter asks for -/

variable {aliases : List (String × String)} {registry : Registry} {postgres : Bool}

/-- The tokens of a field: the alias of its model, a point and its backing column. -/
def Locates (aliases : List (String × String)) (registry : Registry) (ref : FieldRef) (type : FieldType)
    (ts : List Sql.Token) : Prop :=
  ∃ tableAlias field, aliases.lookup ref.model = some tableAlias ∧
    registry.field? ref.model ref.field = some field ∧ field.type = type ∧
    ts = [.name tableAlias, .symbol ".", .name field.backingColumn]

/-- The words of a test. -/
def Test.words : Test → List String
  | .isNull => ["IS", "NULL"]
  | .isNotNull => ["IS", "NOT", "NULL"]
  | .isTrue => ["IS", "TRUE"]
  | .isFalse => ["IS", "FALSE"]

/-- A character as patterns write it: a backslash stands before a backslash, a percent sign and an
underscore. -/
def patternChar (c : Char) : List Char := if c ∈ ['\\', '%', '_'] then ['\\', c] else [c]

/-- The pattern that a search looks for: the characters of the value, with a wildcard in front unless the
text starts with it, and behind unless the text ends with it. -/
def searchedPattern (s : Search) (value : String) : String :=
  let front := if s = .startsWith then [] else ['%']
  let back := if s = .endsWith then [] else ['%']
  String.ofList (front ++ value.toList.flatMap patternChar ++ back)

/-- The tokens of the column that a search looks at: a column that is no text is cast to one. -/
def targetTokens (type : FieldType) (column : List Sql.Token) : List Sql.Token :=
  if type = .string then column
  else .word "CAST" :: .symbol "(" :: (column ++ [.word "AS", .word "TEXT", .symbol ")"])

/-- The tokens of a search, in which letter case is left aside. -/
def searchTokens (postgres : Bool) (type : FieldType) (column : List Sql.Token) (pattern : String) :
    List Sql.Token :=
  if postgres then
    targetTokens type column ++ [.word "ILIKE", .literal pattern, .word "ESCAPE", .literal "\\"]
  else
    .word "LOWER" :: .symbol "(" :: (targetTokens type column ++
      [.symbol ")", .word "LIKE", .word "LOWER", .symbol "(", .literal pattern, .symbol ")",
        .word "ESCAPE", .literal "\\"])

/-- What a filter contributes to the tokens of a statement. -/
inductive Contributes (aliases : List (String × String)) (registry : Registry) (postgres : Bool) (f : Spec) :
    List Sql.Token → Prop
  | test {t : Test} {type : FieldType} {column : List Sql.Token} :
      f.operator = .test t → Locates aliases registry f.left type column →
      Contributes aliases registry postgres f (column ++ t.words.map .word)
  | search {s : Search} {value : String} {type : FieldType} {column : List Sql.Token} :
      f.operator = .search s → f.rightKind = .value → f.value = some value →
      Locates aliases registry f.left type column →
      Contributes aliases registry postgres f (searchTokens postgres type column (searchedPattern s value))
  | fields {c : Comparator} {ref : FieldRef} {type type' : FieldType} {left right : List Sql.Token} :
      f.operator = .compare c → f.rightKind = .field → f.right = some ref →
      Locates aliases registry f.left type left → Locates aliases registry ref type' right →
      Contributes aliases registry postgres f (left ++ .symbol c.symbol :: right)
  | truth {c : Comparator} {b : Bool} {type : FieldType} {left : List Sql.Token} :
      f.operator = .compare c → f.rightKind = .value → f.valueKind = .boolean →
      f.value = some (if b then "true" else "false") → Locates aliases registry f.left type left →
      Contributes aliases registry postgres f
        (left ++ [.symbol c.symbol, .word (if b then "TRUE" else "FALSE")])
  | text {c : Comparator} {value : String} {type : FieldType} {left : List Sql.Token} :
      f.operator = .compare c → f.rightKind = .value → f.valueKind = .string → f.value = some value →
      Locates aliases registry f.left type left →
      Contributes aliases registry postgres f (left ++ [.symbol c.symbol, .literal value])
  | date {c : Comparator} {value : String} {type : FieldType} {left : List Sql.Token} :
      f.operator = .compare c → f.rightKind = .value → f.valueKind = .date → f.value = some value →
      Locates aliases registry f.left type left →
      Contributes aliases registry postgres f (left ++ [.symbol c.symbol, .literal (Text.trim value)])
  /-- The tokens of a number spell it. -/
  | number {c : Comparator} {value : String} {type : FieldType} {left numeral : List Sql.Token} :
      f.operator = .compare c → f.rightKind = .value → f.valueKind = .number → f.value = some value →
      Locates aliases registry f.left type left → (∀ t ∈ numeral, t.InNumeral) →
      numeral.flatMap Sql.Token.spelled = (Text.trim value).toList →
      Contributes aliases registry postgres f (left ++ .symbol c.symbol :: numeral)

/-! ## Columns and phrases -/

/-- The tokens of a column. -/
def ClauseColumn.tokens (c : ClauseColumn) : List Sql.Token := [.name c.tableAlias, .symbol ".", .name c.name]

theorem locates_of_columnOf {ref : FieldRef} {column : ClauseColumn}
    (h : columnOf ref aliases registry = .ok column) :
    Locates aliases registry ref column.type column.tokens := by
  unfold columnOf at h
  split at h
  · cases h
  · next tableAlias halias =>
    split at h
    · cases h
    · next field hfield =>
      cases h
      exact ⟨tableAlias, field, halias, hfield, rfl, rfl⟩

theorem ClauseColumn.reads (c : ClauseColumn) :
    Reads c.text.toList c.tokens (.closing .name c.name.toList) := by
  have hpoint : Reads ['.'] [.symbol "."] (.symbol '.') := ⟨rfl, _, rfl, rfl⟩
  have hname := hpoint.append (Reads.quotedName c.name) (Reads.head?_quotedName _) ⟨_, rfl, rfl⟩
  have hcolumn := (Reads.quotedName c.tableAlias).append hname rfl (Mode.endsAt_closing (by decide))
  simpa [ClauseColumn.text, ClauseColumn.tokens] using hcolumn

theorem ClauseColumn.head?_text (c : ClauseColumn) : c.text.toList.head? = some '"' := by
  rw [ClauseColumn.text, String.toList_append, String.toList_append, List.append_assoc, List.head?_append,
    Reads.head?_quotedName]
  rfl

theorem ClauseColumn.stands (c : ClauseColumn) : Stands c.text c.tokens :=
  ⟨_, c.reads, Mode.endsAt_closing (by decide)⟩

theorem Test.stands (t : Test) : Stands t.phrase (t.words.map .word) := by
  cases t <;> exact ⟨_, ⟨rfl, _, rfl, rfl⟩, _, rfl, rfl⟩

theorem Comparator.stands (c : Comparator) : Stands c.symbol [.symbol c.symbol] := by
  cases c <;> exact ⟨_, ⟨rfl, _, rfl, rfl⟩, _, rfl, rfl⟩

/-! ## Searches -/

theorem escapePattern_eq_flatMap (cs : List Char) : escapePattern cs = cs.flatMap patternChar := by
  induction cs with
  | nil => rfl
  | cons c cs ih =>
    have hspecial : (c = '\\' ∨ c = '%' ∨ c = '_') ↔ c ∈ ['\\', '%', '_'] := by simp
    rw [escapePattern, ih, List.flatMap_cons, patternChar]
    simp only [hspecial]
    split <;> rfl

theorem searchedPattern_eq (s : Search) (value : String) :
    searchedPattern s value = String.ofList (patternOf s value.toList) := by
  cases s <;> simp [searchedPattern, patternOf, escapePattern_eq_flatMap]

/-- The column that a search looks at, as a text. -/
def ClauseColumn.target (c : ClauseColumn) : String :=
  if c.type == .string then c.text else "CAST(" ++ c.text ++ " AS TEXT)"

/-- A blank or a parenthesis ends the column that a search looks at. -/
theorem ClauseColumn.target_reads (c : ClauseColumn) :
    ∃ m head, Reads c.target.toList (targetTokens c.type c.tokens) m ∧ c.target.toList.head? = some head ∧
      m.EndsAt ' ' ∧ m.EndsAt ')' := by
  unfold ClauseColumn.target targetTokens
  by_cases htype : c.type = .string
  · simp only [htype, BEq.rfl, if_true]
    exact ⟨_, '"', c.reads, c.head?_text, Mode.endsAt_closing (by decide), Mode.endsAt_closing (by decide)⟩
  · simp only [htype, beq_iff_eq, if_false]
    have hcast : Reads "CAST(".toList [.word "CAST", .symbol "("] (.symbol '(') := ⟨rfl, _, rfl, rfl⟩
    have htext : Reads " AS TEXT)".toList [.word "AS", .word "TEXT", .symbol ")"] (.symbol ')') :=
      ⟨rfl, _, rfl, rfl⟩
    have hopened := hcast.append c.reads c.head?_text (Mode.endsAt_parenthesis (.inl rfl) _)
    have hclosed := hopened.append htext rfl (Mode.endsAt_closing (by decide))
    refine ⟨_, 'C', ?_, ?_, Mode.endsAt_parenthesis (.inr rfl) _, Mode.endsAt_parenthesis (.inr rfl) _⟩
    · rw [String.toList_append, String.toList_append]
      exact hclosed
    · rw [String.toList_append, String.toList_append, List.append_assoc, List.head?_append]
      rfl

/-- A clause of a search reads as its tokens. -/
theorem searchClause_stands (column : ClauseColumn) (s : Search) (value : String) (postgres : Bool) :
    Stands (searchClause column s value postgres)
      (searchTokens postgres column.type column.tokens (searchedPattern s value)) := by
  obtain ⟨m, head, htarget, hhead, hblank, hparenthesis⟩ := column.target_reads
  have hescape := Stands.word "ESCAPE" (by decide)
  have hliteral := Stands.quotedText "\\"
  rw [searchedPattern_eq]
  cases postgres with
  | true =>
    have hlike := Stands.word "ILIKE" (by decide)
    have hcolumn : Stands column.target (targetTokens column.type column.tokens) := ⟨m, htarget, hblank⟩
    have hpattern := Stands.quotedText (String.ofList (patternOf s value.toList))
    have hclause := (((hcolumn.append hlike).append hpattern).append hescape).append hliteral
    simpa [searchClause, searchTokens, ClauseColumn.target, String.append_assoc] using hclause
  | false =>
    have hlower : Reads "LOWER(".toList [.word "LOWER", .symbol "("] (.symbol '(') := ⟨rfl, _, rfl, rfl⟩
    have hlike : Reads ") LIKE LOWER(".toList [.symbol ")", .word "LIKE", .word "LOWER", .symbol "("]
        (.symbol '(') := ⟨rfl, _, rfl, rfl⟩
    have hclose : Reads ")".toList [.symbol ")"] (.symbol ')') := ⟨rfl, _, rfl, rfl⟩
    have hpattern := Reads.quotedText (String.ofList (patternOf s value.toList))
    have hcolumn := hlower.append htarget hhead (Mode.endsAt_parenthesis (.inl rfl) _)
    have hmatched := ((hcolumn.append hlike rfl hparenthesis).append hpattern (Reads.head?_quotedText _)
      (Mode.endsAt_parenthesis (.inl rfl) _)).append hclose rfl (Mode.endsAt_closing (by decide))
    simp only [← String.toList_append] at hmatched
    have hpair := Stands.append ⟨_, hmatched, Mode.endsAt_parenthesis (.inr rfl) _⟩ hescape
    have hclause := hpair.append hliteral
    simpa [searchClause, searchTokens, ClauseColumn.target, String.append_assoc] using hclause

/-! ## Numbers -/

/-- A text that is read as a numeral spells it, apart from a line feed at its end. -/
theorem numeral?_spelled {text : String} {negative : Bool} {n : Decimal.Numeral}
    (h : numeral? text = some (negative, n)) :
    ∃ sign cs, SignText negative sign ∧ n.Spelled cs ∧
      (text.toList = sign ++ cs ∨ text.toList = sign ++ cs ++ ['\n']) := by
  obtain ⟨sign, hsign, htext⟩ := sign?_spelled text.toList
  unfold numeral? at h
  dsimp only at h
  split at h
  · next n' hscan =>
    cases h
    obtain ⟨cs, hspelled, hbody⟩ := Decimal.Numeral.scan?_spelled hscan
    refine ⟨sign, cs, hsign, hspelled, .inl ?_⟩
    rw [htext, hbody, List.append_nil]
  · next n' hscan =>
    cases h
    obtain ⟨cs, hspelled, hbody⟩ := Decimal.Numeral.scan?_spelled hscan
    refine ⟨sign, cs, hsign, hspelled, .inr ?_⟩
    rw [htext, hbody, List.append_assoc]
  · cases h

/-- A trimmed text does not end with a blank. -/
theorem getLast?_trim {value : String} {c : Char} (h : (Text.trim value).toList.getLast? = some c) :
    Text.isBlank c = false := by
  rw [Text.trim, String.toList_ofList, Text.trimChars, Text.trimEnd, List.getLast?_reverse] at h
  have hnot := List.head?_dropWhile_not Text.isBlank (value.toList.dropWhile Text.isBlank).reverse
  rw [h] at hnot
  simpa using hnot

/-- A trimmed text that is read as a numeral spells it. -/
theorem numeral?_trim_spelled {value : String} {negative : Bool} {n : Decimal.Numeral}
    (h : numeral? (Text.trim value) = some (negative, n)) :
    ∃ sign cs, SignText negative sign ∧ n.Spelled cs ∧ (Text.trim value).toList = sign ++ cs := by
  obtain ⟨sign, cs, hsign, hspelled, htext | htext⟩ := numeral?_spelled h
  · exact ⟨sign, cs, hsign, hspelled, htext⟩
  · have hfeed : (Text.trim value).toList.getLast? = some '\n' := by rw [htext, List.getLast?_concat]
    have hlast := getLast?_trim hfeed
    exact absurd hlast (by decide)

/-- A number is written by its digits, a point, signs and an exponent mark, and no comment begins in it. -/
theorem numberText_spelled {value : String} (h : isNumber (Text.trim value) = true) :
    ∃ negative sign cs, ∃ n : Decimal.Numeral, SignText negative sign ∧ n.Spelled cs ∧
      (Text.trim value).toList = sign ++ cs := by
  unfold isNumber at h
  split at h
  · next n hn =>
    obtain ⟨sign, cs, hspelled⟩ := numeral?_trim_spelled hn
    exact ⟨n.1, sign, cs, n.2, hspelled⟩
  · cases h

theorem isWordPart_of_isDigit {c : Char} (h : Text.isDigit c = true) : Sql.isWordPart c = true := by
  unfold Text.isDigit Text.digitValue? at h
  unfold Sql.isWordPart
  split at h
  · split at h
    · next hdigit =>
      have hc : c.isDigit = true := by
        simp only [Char.isDigit, Bool.and_eq_true, decide_eq_true_eq, ge_iff_le, UInt32.le_iff_toNat_le]
        exact hdigit
      simp [Char.isAlphanum, hc]
    · cases h
  · next hc => simp [Nat.not_lt.mp hc]

theorem numeralPart_of_spellingChar {c : Char} (h : Decimal.SpellingChar c) : Sql.NumeralPart c := by
  rcases h with h | h | h | h | h
  · exact .inl (isWordPart_of_isDigit h)
  · exact .inr (.inl h)
  · exact .inr (.inr (.inl h))
  · exact .inr (.inr (.inr h))
  · refine .inl ?_
    simp only [Decimal.isExponentMark, Bool.or_eq_true, beq_iff_eq] at h
    rcases h with rfl | rfl <;> decide

/-- A number reads as tokens without quotes that spell it. -/
theorem number_stands {value : String} (h : isNumber (Text.trim value) = true) :
    ∃ ts, Stands (Text.trim value) ts ∧ (∀ t ∈ ts, t.InNumeral) ∧
      ts.flatMap Sql.Token.spelled = (Text.trim value).toList := by
  obtain ⟨negative, sign, cs, n, hsign, hspelled, htext⟩ := numberText_spelled h
  refine Stands.numeral (fun c hc => numeralPart_of_spellingChar ?_) ?_
  · rw [htext] at hc
    exact (List.mem_append.mp hc).elim (hsign.spellingChar c) (hspelled.spellingChar c)
  · rw [htext]
    exact hspelled.isChain hsign

/-! ## Clauses -/

theorem truth_stands (b : Bool) :
    Stands (ClauseValue.truth b).written [.word (if b then "TRUE" else "FALSE")] := by
  cases b with
  | false => exact Stands.word "FALSE" (by decide)
  | true => exact Stands.word "TRUE" (by decide)

/-- The clause of a comparison with a value reads as the tokens that its filter asks for. -/
theorem compareValue_stands {f : Spec} {left : ClauseColumn} {c : Comparator} {value : ClauseValue}
    (hoperator : f.operator = .compare c) (hkind : f.rightKind = .value)
    (hleft : Locates aliases registry f.left left.type left.tokens)
    (h : valueOf f.operator f.valueKind f.value = .ok value) (postgres : Bool) :
    ∃ ts, Contributes aliases registry postgres f ts ∧
      Stands ((Predicate.compareValue left c value).clause postgres) ts := by
  have hcompared := left.stands.append c.stands
  have hclause : ∀ {ts : List Sql.Token}, Stands value.written ts →
      Stands ((Predicate.compareValue left c value).clause postgres) (left.tokens ++ .symbol c.symbol :: ts) :=
    fun hvalue => by simpa [Predicate.clause] using hcompared.append hvalue
  cases hvalue : f.value with
  | none =>
    rw [hvalue] at h
    cases h
  | some v =>
    rw [hvalue] at h
    unfold valueOf at h
    cases hvalueKind : f.valueKind with
    | string =>
      simp only [hvalueKind] at h
      split at h
      · cases h
      · cases h
        exact ⟨_, .text hoperator hkind hvalueKind hvalue hleft, hclause (Stands.quotedText v)⟩
    | date =>
      simp only [hvalueKind] at h
      split at h
      · cases h
      · cases h
        exact ⟨_, .date hoperator hkind hvalueKind hvalue hleft, hclause (Stands.quotedText (Text.trim v))⟩
    | number =>
      simp only [hvalueKind] at h
      split at h
      · next hnumber =>
        cases h
        obtain ⟨ts, hstands, htokens, hspelled⟩ := number_stands hnumber
        exact ⟨_, .number hoperator hkind hvalueKind hvalue hleft htokens hspelled, hclause hstands⟩
      · cases h
    | boolean =>
      simp only [hvalueKind] at h
      obtain ⟨b, hb, hv⟩ : ∃ b, value = .truth b ∧ v = if b then "true" else "false" := by
        split at h
        · next htrue => exact ⟨true, (Except.ok.inj h).symm, by simpa using htrue⟩
        · split at h
          · next hfalse => exact ⟨false, (Except.ok.inj h).symm, by simpa using hfalse⟩
          · cases h
      subst hb hv
      exact ⟨_, .truth hoperator hkind hvalueKind hvalue hleft, hclause (truth_stands b)⟩

/-- The clause of a valid filter reads as the tokens that the filter asks for. -/
theorem clause_stands {f : Spec} {p : Predicate} (h : predicateOf f aliases registry = .ok p)
    (postgres : Bool) :
    ∃ ts, Contributes aliases registry postgres f ts ∧ Stands (p.clause postgres) ts := by
  obtain ⟨left, hleft, h⟩ := bind_eq_ok.mp h
  have hlocates := locates_of_columnOf hleft
  split at h
  · cases h
  · split at h
    · next t hoperator =>
      cases h
      exact ⟨_, .test hoperator hlocates, left.stands.append t.stands⟩
    · next s hoperator =>
      split at h
      · cases h
      · cases h
      · next v hkind hvalue =>
        split at h
        · cases h
        · cases h
          exact ⟨_, .search hoperator hkind hvalue hlocates, searchClause_stands left s v postgres⟩
    · next c hoperator =>
      split at h
      · next hkind =>
        split at h
        · cases h
        · next ref href =>
          obtain ⟨right, hright, h⟩ := bind_eq_ok.mp h
          cases h
          refine ⟨_, .fields hoperator hkind href hlocates (locates_of_columnOf hright), ?_⟩
          simpa [Predicate.clause] using (left.stands.append c.stands).append right.stands
      · next hkind =>
        obtain ⟨value, hvalue, h⟩ := bind_eq_ok.mp h
        cases h
        exact compareValue_stands hoperator hkind hlocates hvalue postgres

/-! ## Joined clauses -/

/-- The clauses are those of the valid filters, in filter order. -/
theorem compileFrom_predicates (position : Nat) (filters : List Spec) :
    List.Forall₂ (fun f p => predicateOf f aliases registry = .ok p)
      (filters.filter fun f => (predicateOf f aliases registry).isOk)
      (compileFrom aliases registry position filters).predicates := by
  induction filters generalizing position with
  | nil => exact .nil
  | cons f filters ih =>
    rw [compileFrom, List.filter_cons]
    cases hpredicate : predicateOf f aliases registry with
    | error fault => exact ih (position + 1)
    | ok p => exact .cons hpredicate (ih (position + 1))

theorem parts_of_predicates {filters : List Spec} {predicates : List Predicate}
    (h : List.Forall₂ (fun f p => predicateOf f aliases registry = .ok p) filters predicates)
    (postgres : Bool) :
    ∃ parts, List.Forall₂ (Contributes aliases registry postgres) filters parts ∧
      List.Forall₂ Stands (predicates.map (·.clause postgres)) parts := by
  induction h with
  | nil => exact ⟨[], .nil, .nil⟩
  | cons hpredicate _ ih =>
    obtain ⟨ts, hcontributes, hstands⟩ := clause_stands hpredicate postgres
    obtain ⟨parts, hparts, hrest⟩ := ih
    exact ⟨ts :: parts, .cons hcontributes hparts, .cons hstands hrest⟩

/-- Clauses that are joined keep their tokens. -/
theorem joined_stands {clauses : List String} {parts : List (List Sql.Token)}
    (h : List.Forall₂ Stands clauses parts) :
    Stands (Json.joined " AND " clauses) ([Sql.Token.word "AND"].intercalate parts) := by
  have hand := Stands.word "AND" (by decide)
  induction h with
  | nil => exact ⟨_, Reads.nil, Mode.endsAt_between _⟩
  | @cons clause ts clauses parts hclause hrest ih =>
    cases hrest with
    | nil => simpa [Json.joined] using hclause
    | cons hnext hrest =>
      have hjoined := (hclause.append hand).append ih
      simpa [Json.joined, List.intercalate, String.append_assoc] using hjoined

/-- The clauses of filters, joined by `AND`, read as the tokens that the valid filters ask for, with the
word `AND` between those of two filters, and each clause alone reads as the tokens of its filter: no text
of a name or of a value ends its quotes, or adds, removes or merges tokens. -/
theorem clauses_keep_tokens (filters : List Spec) (aliases : List (String × String)) (registry : Registry)
    (postgres : Bool) :
    ∃ parts : List (List Sql.Token),
      List.Forall₂ (Contributes aliases registry postgres)
        (filters.filter fun f => (predicateOf f aliases registry).isOk) parts ∧
      List.Forall₂ (fun clause ts => tokens? clause = some ts)
        ((compile filters aliases registry).clauses postgres) parts ∧
      tokens? (Json.joined " AND " ((compile filters aliases registry).clauses postgres)) =
        some ([Sql.Token.word "AND"].intercalate parts) := by
  obtain ⟨parts, hparts, hstands⟩ := parts_of_predicates (compileFrom_predicates 1 filters) postgres
  exact ⟨parts, hparts, hstands.imp fun _ _ h => h.tokens?_eq, (joined_stands hstands).tokens?_eq⟩

example :
    let registry : Registry :=
      ⟨[⟨"m", "m", "m", [⟨"f", "F", .string, some "a\" --", false, true, "TEXT"⟩], [], ""⟩]⟩
    let filters : List Spec :=
      [⟨none, ⟨"m", "f"⟩, .compare .eq, .value, some "'; --", none, .string⟩,
        ⟨none, ⟨"m", "f"⟩, .search .contains, .value, some "50%' \\", none, .string⟩]
    tokens? (Json.joined " AND " ((compile filters [("m", "t\"")] registry).clauses true)) =
      some [.name "t\"", .symbol ".", .name "a\" --", .symbol "=", .literal "'; --",
        .word "AND",
        .name "t\"", .symbol ".", .name "a\" --", .word "ILIKE", .literal "%50\\%' \\\\%",
        .word "ESCAPE", .literal "\\"] := by
  decide +kernel

end AdhocReport.Filter
