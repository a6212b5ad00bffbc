import AdhocReport.Sql.Lexer
import Mathlib.Data.List.Infix
import Mathlib.Data.List.TakeWhile
set_option autoImplicit false

/-!
# SQL: where a lenient reader splits a statement

A statement is written with quotes doubled and backslashes left as they are.  The reader that splits it
takes a quote behind a backslash for a part of the quoted text, and two hyphens for a comment.  Up to the
first place where this makes a difference it reads what was written: a semicolon between quotes is passed
over, and there is none elsewhere.  So what counts is whether a semicolon stands behind that place.
-/

namespace AdhocReport.Sql

open AdhocReport.Text

/-! ## The reading of the writer -/

/-- How far a text was written: outside quotes behind a character, or inside the quotes of a mark. -/
inductive Place where
  | outside (before : Option Char)
  | inside (mark : Char)
  deriving DecidableEq, Repr

/-- A mark that stands around names or literals. -/
def IsMark (c : Char) : Prop := c = '\'' ∨ c = '"'

instance (c : Char) : Decidable (IsMark c) := inferInstanceAs (Decidable (_ ∨ _))

/-- The characters that are written between quotes only. -/
def kept : List Char := [';', '#', '[', '\r', '\x60', '\u00b4']

/-- A character that is written outside quotes behind `before`: nothing that a reader closes elsewhere
begins with it, and it is no semicolon. -/
def IsPlain (before : Option Char) (c : Char) : Prop :=
  c ∉ kept ∧ (c = '*' → before ≠ some '/') ∧
    (c = '$' → ∃ b, before = some b ∧ (isWord b = true ∨ b = '$'))

instance (before : Option Char) (c : Char) : Decidable (IsPlain before c) :=
  have : Decidable (∃ b, before = some b ∧ (isWord b = true ∨ b = '$')) :=
    match before with
    | none => isFalse (by simp)
    | some b => decidable_of_iff (isWord b = true ∨ b = '$') (by simp)
  inferInstanceAs (Decidable (_ ∧ _))

/-- Go on behind a character, if it may be written there. -/
def Place.step : Place → Char → Option Place
  | .outside before, c =>
    if IsMark c then some (.inside c) else if IsPlain before c then some (.outside (some c)) else none
  | .inside q, c => some (if c = q then .outside (some q) else .inside q)

/-- The text can be written from a place on, and ends outside quotes. -/
def Written (p : Place) (cs : List Char) : Prop := ∃ before, cs.foldlM Place.step p = some (.outside before)

/-- What stands behind the first place where a reader leaves the reading of the writer: behind a mark
inside quotes, if a backslash stands before it and another such mark follows, and behind two hyphens
outside quotes.  The mark of the quotes that the text begins in is given. -/
def misread : Option Char → List Char → List Char
  | _, [] => []
  | none, c :: rest =>
    if IsMark c then misread (some c) rest
    else if c = '-' ∧ rest.head? = some '-' then rest
    else misread none rest
  | some q, c :: rest =>
    if c = q then misread none rest
    else if c = '\\' ∧ rest.head? = some q ∧ q ∈ rest.tail then rest.tail
    else misread (some q) rest

section

variable {before : Option Char} {q c : Char} {cs rest after : List Char}

theorem written_outside_cons :
    Written (.outside before) (c :: rest) ↔
      (IsMark c ∧ Written (.inside c) rest) ∨ (¬ IsMark c ∧ IsPlain before c ∧ Written (.outside (some c)) rest) := by
  unfold Written
  rw [List.foldlM_cons, Place.step]
  split
  · rename_i hmark
    simp [hmark]
  · rename_i hmark
    split
    · rename_i hplain
      simp [hmark, hplain]
    · rename_i hplain
      simp [hmark, hplain]

theorem written_inside_cons :
    Written (.inside q) (c :: rest) ↔
      (c = q ∧ Written (.outside (some q)) rest) ∨ (c ≠ q ∧ Written (.inside q) rest) := by
  unfold Written
  rw [List.foldlM_cons, Place.step]
  split
  · rename_i hmark
    simp [hmark]
  · rename_i hmark
    simp [hmark]

theorem not_written_inside_nil : ¬ Written (.inside q) [] := by
  rintro ⟨before, h⟩
  cases h

theorem misread_open (h : IsMark c) : misread none (c :: rest) = misread (some c) rest := by
  rw [misread, if_pos h]

theorem misread_close : misread (some q) (q :: rest) = misread none rest := by
  rw [misread, if_pos rfl]

theorem misread_outside (hmark : ¬ IsMark c) (hdashes : ¬ (c = '-' ∧ rest.head? = some '-')) :
    misread none (c :: rest) = misread none rest := by
  rw [misread, if_neg hmark, if_neg hdashes]

theorem misread_inside (hc : c ≠ q) (hescape : ¬ (c = '\\' ∧ rest.head? = some q ∧ q ∈ rest.tail)) :
    misread (some q) (c :: rest) = misread (some q) rest := by
  rw [misread, if_neg hc, if_neg hescape]

theorem misread_escape (hq : '\\' ≠ q) (hmem : q ∈ rest) : misread (some q) ('\\' :: q :: rest) = rest := by
  rw [misread, if_neg hq, if_pos ⟨rfl, rfl, hmem⟩]
  rfl

/-- Without a backslash, and without two hyphens side by side, there is no such place. -/
theorem misread_eq_nil (hbackslash : '\\' ∉ cs) (hdashes : ¬ ['-', '-'] <:+: cs) (mark : Option Char) :
    misread mark cs = [] := by
  induction cs generalizing mark with
  | nil => rw [misread]
  | cons c rest ih =>
    rw [List.mem_cons, not_or] at hbackslash
    have hrest := ih hbackslash.2 fun h => hdashes (List.infix_cons h)
    have hc : ¬ (c = '-' ∧ rest.head? = some '-') := by
      rintro ⟨rfl, hhead⟩
      obtain ⟨more, rfl⟩ := List.head?_eq_some_iff.mp hhead
      exact hdashes ⟨[], more, rfl⟩
    cases mark with
    | none =>
      by_cases hmark : IsMark c
      · rw [misread_open hmark, hrest]
      · rw [misread_outside hmark hc, hrest]
    | some q =>
      by_cases hq : c = q
      · rw [hq, misread_close, hrest]
      · rw [misread_inside hq fun h => hbackslash.1 h.1.symm, hrest]

/-! ## What the parts of the reader leave over -/

theorem orElse_eq_some {α : Type} {x : Option α} {f : Unit → Option α} {a : α} (h : x.orElse f = some a) :
    x = some a ∨ f () = some a := by
  cases x with
  | none => exact .inr h
  | some b => exact .inl h

theorem afterQuote_suffix {q : Char} {cs after : List Char} (h : afterQuote q cs = some after) :
    q :: after <:+ cs := by
  fun_induction afterQuote q cs with
  | case1 => cases h
  | case2 rest ih =>
    rcases orElse_eq_some h with h | h
    · exact (ih h).trans ((List.suffix_cons _ _).trans (List.suffix_cons _ _))
    · cases h
      exact List.suffix_rfl
  | case3 d rest hd =>
    cases h
    exact List.suffix_rfl
  | case4 =>
    cases h
    exact List.suffix_rfl
  | case5 rest hmark ihafter ihrest =>
    rcases orElse_eq_some h with h | h
    · exact (ihafter h).trans ((List.suffix_cons _ _).trans (List.suffix_cons _ _))
    · exact (ihrest h).trans (List.suffix_cons _ _)
  | case6 d rest _ _ ih => exact (ih h).trans (List.suffix_cons _ _)
  | case7 => cases h
  | case8 c rest _ _ ih => exact (ih h).trans (List.suffix_cons _ _)

/-- Quotes stay open only where no mark follows. -/
theorem afterQuote_eq_none_iff : afterQuote q cs = none ↔ q ∉ cs := by
  fun_induction afterQuote q cs <;> grind

theorem afterLine_suffix (cs : List Char) : afterLine cs <:+ cs := by
  fun_induction afterLine cs with
  | case1 => exact List.suffix_rfl
  | case2 rest => exact (List.suffix_cons _ _).trans (List.suffix_cons _ _)
  | case3 c rest => exact List.suffix_cons _ _
  | case4 c rest _ _ ih => exact ih.trans (List.suffix_cons _ _)

theorem afterComment_suffix (h : afterComment cs = some after) : after <:+ cs := by
  fun_induction afterComment cs with
  | case1 => cases h
  | case2 rest =>
    cases h
    exact (List.suffix_cons _ _).trans (List.suffix_cons _ _)
  | case3 c rest _ ih => exact (ih h).trans (List.suffix_cons _ _)

theorem afterMark_suffix {mark : Char} (h : afterMark mark cs = some after) : after <:+ cs := by
  fun_induction afterMark mark cs with
  | case1 => cases h
  | case2 rest ih =>
    rcases orElse_eq_some h with h | h
    · exact (ih h).trans ((List.suffix_cons _ _).trans (List.suffix_cons _ _))
    · cases h
      exact List.suffix_cons _ _
  | case3 d rest hd =>
    cases h
    exact List.suffix_cons _ _
  | case4 =>
    cases h
    exact List.suffix_cons _ _
  | case5 c rest hc ih => exact (ih h).trans (List.suffix_cons _ _)

theorem afterBracket_suffix (h : afterBracket cs = some after) : after <:+ cs := by
  fun_induction afterBracket cs with
  | case1 => cases h
  | case2 rest =>
    cases h
    exact List.suffix_cons _ _
  | case3 => cases h
  | case4 c rest _ _ ih => exact (ih h).trans (List.suffix_cons _ _)

theorem afterTag_suffix {tag : List Char} (h : afterTag tag cs = some after) : after <:+ cs := by
  fun_induction afterTag tag cs with
  | case1 => cases h
  | case2 c rest =>
    cases h
    exact List.drop_suffix _ _
  | case3 c rest _ ih => exact (ih h).trans (List.suffix_cons _ _)

theorem afterDollar_suffix (h : afterDollar (c :: rest) = some after) : after <:+ rest := by
  unfold afterDollar at h
  split at h
  · rename_i rest' heq
    cases heq
    dsimp only at h
    split at h
    · cases h
    · split at h
      · rename_i body hbody
        exact (afterTag_suffix h).trans ((List.suffix_cons _ _).trans (hbody ▸ List.dropWhile_suffix _))
      · cases h
  · cases h

/-! ## One lexeme -/

/-- Something may begin at the character that is closed behind others. -/
def Begins (before : Option Char) (c : Char) (rest : List Char) : Prop :=
  c ∈ kept ∨ IsMark c ∨ (c = '-' ∧ rest.head? = some '-') ∨ (c = '/' ∧ rest.head? = some '*') ∨
    (c = '$' ∧ ∀ b, before = some b → isWord b = false ∧ b ≠ '$')

/-- What the reader takes in front, and what it leaves over. -/
inductive Takes (before : Option Char) (c : Char) (rest : List Char) : Lexeme × List Char → Prop
  | character {l : Lexeme} : (l = .semicolon → c = ';') → Takes before c rest (l, rest)
  | word {l : Lexeme} : l ≠ .semicolon → isWord c = true → Takes before c rest (l, (spanWord (c :: rest)).2)
  | region {l : Lexeme} {after : List Char} : l ≠ .semicolon → Begins before c rest → after <:+ rest →
      Takes before c rest (l, after)

theorem takes_found (l : Lexeme) (hl : l ≠ .semicolon) (hbegins : Begins before c rest) (found : Option (List Char)) :
    (∀ after, found = some after → after <:+ rest) →
      Takes before c rest (match found with
        | some r => (l, r)
        | none => (.other, rest)) := by
  intro hfound
  cases found with
  | none => exact .character nofun
  | some after => exact .region hl hbegins (hfound after rfl)

theorem takes_next (before : Option Char) (c : Char) (rest : List Char) :
    Takes before c rest (Lexeme.next before c rest) := by
  have hdrop : rest.drop 1 <:+ rest := List.drop_suffix _ _
  have hline (hbegins : Begins before c rest) : Takes before c rest (.lineComment, afterLine (rest.drop 1)) :=
    .region nofun hbegins ((afterLine_suffix _).trans hdrop)
  unfold Lexeme.next
  dsimp only
  refine iteInduction (motive := Takes before c rest) (fun _ => .character nofun) fun _ => ?_
  refine iteInduction (motive := Takes before c rest) (fun h => ?_) fun _ => ?_
  · refine .region nofun (.inl (by rw [eq_of_beq h]; decide)) ?_
    exact iteInduction (motive := (· <:+ rest)) (fun _ => hdrop) fun _ => List.suffix_rfl
  refine iteInduction (motive := Takes before c rest) (fun h => ?_) fun _ => ?_
  · rw [Bool.and_eq_true, beq_iff_eq, beq_iff_eq] at h
    exact hline (.inr (.inr (.inl h)))
  refine iteInduction (motive := Takes before c rest) (fun h => ?_) fun _ => ?_
  · rw [Bool.and_eq_true, beq_iff_eq, beq_iff_eq] at h
    exact hline (.inl (by rw [h.1]; decide))
  refine iteInduction (motive := Takes before c rest) (fun h => ?_) fun _ => ?_
  · rw [Bool.and_eq_true, beq_iff_eq, beq_iff_eq] at h
    have hbegins : Begins before c rest := .inr (.inr (.inr (.inl h)))
    exact takes_found .comment nofun hbegins _ fun _ hafter => (afterComment_suffix hafter).trans hdrop
  refine iteInduction (motive := Takes before c rest) (fun _ => .character nofun) fun _ => ?_
  refine iteInduction (motive := Takes before c rest) (fun h => ?_) fun _ => ?_
  · rw [Bool.or_eq_true, beq_iff_eq, beq_iff_eq] at h
    have hkept : c ∈ kept := by rcases h with rfl | rfl <;> decide
    exact takes_found .other nofun (.inl hkept) _ fun _ => afterMark_suffix
  refine iteInduction (motive := Takes before c rest) (fun h => ?_) fun _ => ?_
  · rw [Bool.and_eq_true, beq_iff_eq] at h
    refine takes_found .other nofun (.inr (.inr (.inr (.inr ⟨h.1, ?_⟩)))) _ fun _ => afterDollar_suffix
    rintro b rfl
    have hbefore := h.2
    simp only [Option.any_some, Bool.not_or, Bool.and_eq_true, Bool.not_eq_true', beq_eq_false_iff_ne] at hbefore
    exact ⟨hbefore.1.1, hbefore.2⟩
  refine iteInduction (motive := Takes before c rest) (fun h => ?_) fun _ => ?_
  · rw [Bool.or_eq_true, beq_iff_eq, beq_iff_eq] at h
    have hquote {after : List Char} (hafter : afterQuote c rest = some after) : after <:+ rest :=
      (List.suffix_cons c after).trans (afterQuote_suffix hafter)
    exact takes_found .other nofun (.inr (.inl h)) _ fun _ => hquote
  refine iteInduction (motive := Takes before c rest) (fun h => ?_) fun _ => ?_
  · rw [Bool.and_eq_true, beq_iff_eq] at h
    exact takes_found .other nofun (.inl (by rw [h.1]; decide)) _ fun _ => afterBracket_suffix
  refine iteInduction (motive := Takes before c rest) (fun h => .character fun _ => eq_of_beq h) fun _ => ?_
  refine iteInduction (motive := Takes before c rest) (fun _ => .character nofun) fun _ => ?_
  refine iteInduction (motive := Takes before c rest) (fun _ => .character nofun) fun _ => ?_
  refine iteInduction (motive := Takes before c rest) (fun hword => .word ?_ hword) fun _ => .character nofun
  split <;> nofun

/-- The reader leaves an end of the text over. -/
theorem Takes.suffix {x : Lexeme × List Char} (h : Takes before c rest x) : x.2 <:+ rest := by
  cases h with
  | character _ => exact List.suffix_rfl
  | word _ hword =>
    rw [spanWord, List.dropWhile_cons_of_pos (by simp [hword])]
    exact List.dropWhile_suffix _
  | region _ _ hafter => exact hafter

/-- The reader meets a semicolon only where one stands. -/
theorem Takes.eq_semicolon {x : Lexeme × List Char} (h : Takes before c rest x) (hx : x.1 = .semicolon) :
    c = ';' := by
  cases h with
  | character hl => exact hl hx
  | word hl _ => exact absurd hx hl
  | region hl _ _ => exact absurd hx hl

/-- Nothing that is closed elsewhere begins at a plain character. -/
theorem not_begins_of_isPlain (hmark : ¬ IsMark c) (hplain : IsPlain before c)
    (hdashes : ¬ (c = '-' ∧ rest.head? = some '-')) (hcomment : ¬ (c = '/' ∧ rest.head? = some '*')) :
    ¬ Begins before c rest := by
  obtain ⟨hkept, -, hdollar⟩ := hplain
  rintro (h | h | h | h | ⟨hc, hbefore⟩)
  · exact hkept h
  · exact hmark h
  · exact hdashes h
  · exact hcomment h
  · obtain ⟨b, hb, hword | rfl⟩ := hdollar hc
    · exact absurd (hbefore b hb).1 (by rw [hword]; decide)
    · exact (hbefore '$' hb).2 rfl

/-! ## A text without a semicolon behind the place -/

/-- No semicolon is met from here on: the text was written from here on and none stands behind the place
where the reader may leave the reading of the writer, or there is none at all. -/
def Clear (before : Option Char) (cs : List Char) : Prop :=
  (Written (.outside before) cs ∧ ';' ∉ misread none cs) ∨ ';' ∉ cs

theorem Clear.of_suffix (h : ';' ∉ cs) (hsuffix : after <:+ cs) : Clear before after :=
  .inr fun hmem => h (hsuffix.subset hmem)

/-- The reader finds an end of the quotes, and no semicolon behind it. -/
theorem afterQuote_clear (hq : IsMark q) (hwritten : Written (.inside q) cs) (hclear : ';' ∉ misread (some q) cs) :
    ∃ after, afterQuote q cs = some after ∧ Clear (some q) after := by
  have hleave {rest : List Char} (h : Written (.inside q) (q :: rest)) : Written (.outside (some q)) rest := by
    rcases written_inside_cons.mp h with ⟨-, h⟩ | ⟨hne, -⟩
    · exact h
    · exact absurd rfl hne
  have hstay {c : Char} {rest : List Char} (hc : c ≠ q) (h : Written (.inside q) (c :: rest)) :
      Written (.inside q) rest := by
    rcases written_inside_cons.mp h with ⟨heq, -⟩ | ⟨-, h⟩
    · exact absurd heq hc
    · exact h
  fun_induction afterQuote q cs with
  | case1 => exact absurd hwritten not_written_inside_nil
  | case2 rest ih =>
    -- a mark written twice: the quotes are left and entered again
    have hwritten' : Written (.inside q) rest := by
      rcases written_outside_cons.mp (hleave hwritten) with ⟨-, h⟩ | ⟨hne, -⟩
      · exact h
      · exact absurd hq hne
    rw [misread_close, misread_open hq] at hclear
    obtain ⟨after, hafter, h⟩ := ih hwritten' hclear
    exact ⟨after, by rw [hafter]; rfl, h⟩
  | case3 d rest hd =>
    rw [misread_close] at hclear
    exact ⟨_, rfl, .inl ⟨hleave hwritten, hclear⟩⟩
  | case4 => exact ⟨[], rfl, .inr List.not_mem_nil⟩
  | case5 rest hmark ihafter ihrest =>
    by_cases hmem : q ∈ rest
    · -- the reader takes the mark for a part of the text and goes on to another one
      rw [misread_escape hmark hmem] at hclear
      cases hafter : afterQuote q rest with
      | none => exact absurd hmem (afterQuote_eq_none_iff.mp hafter)
      | some after =>
        have hsuffix := (List.suffix_cons _ _).trans (afterQuote_suffix hafter)
        exact ⟨after, rfl, .of_suffix hclear hsuffix⟩
    · have hhere : misread (some q) ('\\' :: q :: rest) = misread (some q) (q :: rest) :=
        misread_inside hmark fun h => hmem h.2.2
      rw [hhere] at hclear
      rw [afterQuote_eq_none_iff.mpr hmem]
      exact ihrest (hstay hmark hwritten) hclear
  | case6 d rest hd hmark ih =>
    have hhere : misread (some q) ('\\' :: d :: rest) = misread (some q) (d :: rest) :=
      misread_inside hmark fun h => hd (Option.some.inj h.2.1)
    rw [hhere] at hclear
    exact ih (hstay hmark hwritten) hclear
  | case7 hmark => exact absurd (hstay hmark hwritten) not_written_inside_nil
  | case8 c rest hc hbackslash ih =>
    rw [misread_inside hc fun h => hbackslash h.1] at hclear
    exact ih (hstay hc hwritten) hclear

theorem not_isMark_of_isWord (h : isWord c = true) : ¬ IsMark c := by
  rintro (rfl | rfl) <;> revert h <;> decide

theorem ne_of_isWord {d : Char} (h : isWord c = true) (hd : isWord d = false) : c ≠ d := by
  rintro rfl
  rw [h] at hd
  cases hd

/-- The characters of a word leave the reader outside quotes. -/
theorem Clear.of_word (hcs : ∀ c ∈ cs, isWord c = true ∨ c = '$' ∨ c = '#') (hne : cs ≠ [])
    (hwritten : Written (.outside before) (cs ++ rest)) (hclear : ';' ∉ misread none (cs ++ rest)) :
    Clear cs.getLast? rest := by
  induction cs generalizing before with
  | nil => exact absurd rfl hne
  | cons c cs ih =>
    have hmark : ¬ IsMark c := by
      rcases hcs c List.mem_cons_self with hword | rfl | rfl
      · exact not_isMark_of_isWord hword
      · decide
      · decide
    have hdash : c ≠ '-' := by
      rcases hcs c List.mem_cons_self with hword | rfl | rfl
      · exact ne_of_isWord hword (by decide)
      · decide
      · decide
    have hrest : Written (.outside (some c)) (cs ++ rest) := by
      rcases written_outside_cons.mp hwritten with ⟨h, -⟩ | ⟨-, -, h⟩
      · exact absurd h hmark
      · exact h
    rw [List.cons_append, misread_outside hmark fun h => hdash h.1] at hclear
    cases cs with
    | nil => exact .inl ⟨hrest, hclear⟩
    | cons d cs =>
      rw [List.getLast?_cons_cons]
      exact ih (fun e he => hcs e (List.mem_cons_of_mem c he)) (List.cons_ne_nil d cs) hrest hclear

/-- The reader meets no semicolon, and behind what it meets it is clear again. -/
def StaysClear (c : Char) (rest : List Char) (x : Lexeme × List Char) : Prop :=
  x.1 ≠ .semicolon ∧ ∃ passed, rest = passed ++ x.2 ∧ Clear (c :: passed).getLast? x.2

theorem StaysClear.of_notMem (h : ';' ∉ c :: rest) : StaysClear c rest (Lexeme.next before c rest) := by
  have htakes := takes_next before c rest
  obtain ⟨passed, hpassed⟩ := htakes.suffix
  rw [List.mem_cons, not_or] at h
  exact ⟨fun hl => h.1 (htakes.eq_semicolon hl).symm, passed, hpassed.symm, .of_suffix h.2 ⟨passed, hpassed⟩⟩

theorem StaysClear.of_mark (hc : IsMark c) (hwritten : Written (.inside c) rest)
    (hclear : ';' ∉ misread (some c) rest) :
    StaysClear c rest (Lexeme.next before c rest) := by
  obtain ⟨after, hafter, h⟩ := afterQuote_clear hc hwritten hclear
  have hnext : Lexeme.next before c rest = (.other, after) := by
    rcases hc with rfl | rfl
    · have hblank : isBlank '\'' = false := by decide
      simp [Lexeme.next, hblank, hafter]
    · have hblank : isBlank '"' = false := by decide
      simp [Lexeme.next, hblank, hafter]
  obtain ⟨passed, hpassed⟩ := afterQuote_suffix hafter
  rw [hnext]
  refine ⟨nofun, passed ++ [c], by rw [← hpassed]; simp, ?_⟩
  rwa [← List.cons_append, List.getLast?_concat]

theorem StaysClear.of_plain (hmark : ¬ IsMark c) (hplain : IsPlain before c)
    (hwritten : Written (.outside (some c)) rest) (hdashes : ¬ (c = '-' ∧ rest.head? = some '-'))
    (hclear : ';' ∉ misread none rest) : StaysClear c rest (Lexeme.next before c rest) := by
  have hcomment : ¬ (c = '/' ∧ rest.head? = some '*') := by
    rintro ⟨rfl, hhead⟩
    obtain ⟨more, rfl⟩ := List.head?_eq_some_iff.mp hhead
    rcases written_outside_cons.mp hwritten with ⟨h, -⟩ | ⟨-, ⟨-, h, -⟩, -⟩
    · revert h
      decide
    · exact h rfl rfl
  have htakes := takes_next before c rest
  generalize Lexeme.next before c rest = x at htakes
  cases htakes with
  | character hl =>
    have hsemicolon : c ≠ ';' := fun hc => hplain.1 (by rw [hc]; decide)
    exact ⟨fun h => hsemicolon (hl h), [], rfl, .inl ⟨hwritten, hclear⟩⟩
  | word hl hword =>
    have hsplit : (spanWord (c :: rest)).1 ++ (spanWord (c :: rest)).2 = c :: rest := List.takeWhile_append_dropWhile
    have hfirst : ∃ passed, (spanWord (c :: rest)).1 = c :: passed := by
      rw [spanWord, List.takeWhile_cons_of_pos (by simp [hword])]
      exact ⟨_, rfl⟩
    have hchars : ∀ d ∈ (spanWord (c :: rest)).1, isWord d = true ∨ d = '$' ∨ d = '#' := by
      intro d hd
      simpa [or_assoc] using List.mem_takeWhile_imp hd
    obtain ⟨passed, hpassed⟩ := hfirst
    generalize (spanWord (c :: rest)).2 = after at hsplit ⊢
    rw [hpassed] at hsplit hchars
    have hcons : Written (.outside before) (c :: passed ++ after) ∧ ';' ∉ misread none (c :: passed ++ after) := by
      rw [hsplit, misread_outside hmark hdashes]
      exact ⟨written_outside_cons.mpr (.inr ⟨hmark, hplain, hwritten⟩), hclear⟩
    exact ⟨hl, passed, (List.cons.inj hsplit).2.symm, .of_word hchars (List.cons_ne_nil c passed) hcons.1 hcons.2⟩
  | region _ hbegins _ => exact absurd hbegins (not_begins_of_isPlain hmark hplain hdashes hcomment)

theorem staysClear_next (h : Clear before (c :: rest)) : StaysClear c rest (Lexeme.next before c rest) := by
  rcases h with ⟨hwritten, hclear⟩ | h
  · rcases written_outside_cons.mp hwritten with ⟨hmark, hinside⟩ | ⟨hmark, hplain, houtside⟩
    · rw [misread_open hmark] at hclear
      exact .of_mark hmark hinside hclear
    · by_cases hdashes : c = '-' ∧ rest.head? = some '-'
      · rw [misread, if_neg hmark, if_pos hdashes] at hclear
        refine .of_notMem ?_
        rw [List.mem_cons, not_or]
        exact ⟨by rw [hdashes.1]; decide, hclear⟩
      · rw [misread_outside hmark hdashes] at hclear
        exact .of_plain hmark hplain houtside hdashes hclear
  · exact .of_notMem h

/-- No semicolon splits a text that is clear. -/
theorem semicolon_notMem_lexemes (fuel : Nat) (h : Clear before cs) : .semicolon ∉ lexemes fuel before cs := by
  induction fuel generalizing before cs with
  | zero => exact List.not_mem_nil
  | succ fuel ih =>
    cases cs with
    | nil => exact List.not_mem_nil
    | cons c rest =>
      have hnext := staysClear_next h
      rw [lexemes]
      generalize Lexeme.next before c rest = x at hnext
      obtain ⟨l, after⟩ := x
      obtain ⟨hne, passed, rfl, hafter⟩ := hnext
      have htake : (c :: (passed ++ after)).take ((passed ++ after).length + 1 - after.length) = c :: passed := by
        rw [List.length_append, Nat.add_right_comm, Nat.add_sub_cancel, ← List.cons_append]
        exact List.take_left' rfl
      dsimp only at hne hafter ⊢
      rw [htake, List.mem_cons, not_or]
      exact ⟨hne.symm, ih hafter⟩

end

/-! ## Statements -/

/-- The first statement begins with what was read before. -/
theorem splitFrom_head (depth : Int) (ended : Bool) (current ls : List Lexeme) :
    ∃ first others, splitFrom depth ended current ls = (current.reverse ++ first) :: others := by
  induction ls generalizing depth ended current with
  | nil => exact ⟨[], [], by rw [splitFrom, List.append_nil]⟩
  | cons l ls ih =>
    rw [splitFrom]
    split
    · exact ⟨[], _, by rw [List.append_nil]⟩
    · obtain ⟨first, others, h⟩ := ih (depth + depthChange l)
        (ended || (l == .semicolon && depth + depthChange l ≤ 0)) (l :: current)
      exact ⟨l :: first, others, by rw [h, List.reverse_cons, List.append_assoc]; rfl⟩

/-- Without a semicolon there is one statement. -/
theorem splitFrom_of_notMem {ls : List Lexeme} (h : .semicolon ∉ ls) (depth : Int) (current : List Lexeme) :
    splitFrom depth false current ls = [current.reverse ++ ls] := by
  induction ls generalizing depth current with
  | nil => rw [splitFrom, List.append_nil]
  | cons l ls ih =>
    rw [List.mem_cons, not_or] at h
    have hl : (l == Lexeme.semicolon) = false := beq_eq_false_iff_ne.mpr (Ne.symm h.1)
    simp only [splitFrom, hl, Bool.false_and, Bool.or_false, Bool.false_eq_true, if_false, ih h.2,
      List.reverse_cons, List.append_assoc, List.cons_append, List.nil_append]

section

variable {text : String} {w : List Char} {ls : List Lexeme}

/-- The first statement of a text begins with its first word. -/
theorem statements_head (h : lexemes text.toList.length none text.toList = .word w :: ls) :
    ∃ first others, statements text = (.word w :: first) :: others := by
  obtain ⟨first, others, hsplit⟩ := splitFrom_head 0 false [.word w] ls
  have hstart : splitFrom 0 false [] (.word w :: ls) = splitFrom 0 false [.word w] ls := rfl
  rw [statements, h, hstart, hsplit]
  exact ⟨first, _, List.filter_cons_of_pos rfl⟩

theorem statements_of_notMem (h : lexemes text.toList.length none text.toList = .word w :: ls)
    (hsemicolon : .semicolon ∉ .word w :: ls) : statements text = [.word w :: ls] := by
  rw [statements, h, splitFrom_of_notMem hsemicolon]
  rfl

end

end AdhocReport.Sql
