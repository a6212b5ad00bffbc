import AdhocReport.Sql.Quoting
import Mathlib.Data.List.Chain
set_option autoImplicit false

/-!
# SQL: tokens

The tokens of a statement text in standard SQL: names in double quotes, literals in single quotes, in
which a quote is written twice and a backslash is an ordinary character, words, numbers, symbols and two
forms of comments.  A quoted text is one token again, whatever its characters, unless the same quote
follows it; and texts that read as tokens read as the tokens of both when a blank stands between them.
-/

namespace AdhocReport.Sql

/-- A token of a statement. -/
inductive Token where
  | name (n : String)
  | literal (s : String)
  /-- A keyword or a name without quotes. -/
  | word (w : String)
  | number (n : String)
  | symbol (s : String)
  deriving DecidableEq, Repr

/-- What stands between quotes. -/
inductive Quote where
  | name
  | literal
  deriving DecidableEq, Repr

/-- The character that opens and closes. -/
def Quote.mark : Quote → Char
  | .name => '"'
  | .literal => '\''

/-- The token with the given characters between quotes. -/
def Quote.token (q : Quote) (cs : List Char) : Token :=
  match q with
  | .name => .name (String.ofList cs)
  | .literal => .literal (String.ofList cs)

/-- The character stands between tokens. -/
def isSpace (c : Char) : Bool := c.isWhitespace || c == '\x0b' || c == '\x0c'

/-- The character is part of a word; every character beyond ASCII is. -/
def isWordPart (c : Char) : Bool := c.isAlphanum || c == '_' || c == '$' || 0x80 ≤ c.toNat

/-- The symbols of two characters. -/
def symbolPairs : List (Char × Char) :=
  [('<', '>'), ('<', '='), ('>', '='), ('!', '='), ('|', '|'), (':', ':')]

/-- The characters are those of a word: none is a digit in front. -/
def isPlain (cs : List Char) : Bool := cs.all isWordPart && cs.head?.any fun c => !c.isDigit

/-- How far a text has been read: the characters of the token that may still go on, or where outside
tokens the text stands. -/
inductive Mode where
  | between
  | word (cs : List Char)
  | number (cs : List Char)
  /-- A number that ends with an exponent mark, and a sign behind it. -/
  | signed (cs : List Char) (sign : Char)
  | symbol (c : Char)
  /-- Inside quotes. -/
  | quoted (q : Quote) (cs : List Char)
  /-- Behind a quote, which closes unless the same quote follows. -/
  | closing (q : Quote) (cs : List Char)
  | lineComment
  | comment
  /-- Inside a comment, behind an asterisk. -/
  | commentStar
  deriving DecidableEq, Repr

namespace Mode

/-- What a character begins. -/
def start (c : Char) : Mode :=
  if isSpace c then .between
  else if c = '"' then .quoted .name []
  else if c = '\'' then .quoted .literal []
  else if c.isDigit then .number [c]
  else if isWordPart c then .word [c]
  else .symbol c

/-- Read the character behind the first one of a symbol. -/
def afterSymbol (s c : Char) : List Token × Mode :=
  if s = '-' ∧ c = '-' then ([], .lineComment)
  else if s = '/' ∧ c = '*' then ([], .comment)
  else if s = '.' ∧ c.isDigit then ([], .number [s, c])
  else if (s, c) ∈ symbolPairs then ([.symbol (String.ofList [s, c])], .between)
  else ([.symbol (String.ofList [s])], start c)

/-- The number ends with an exponent mark. -/
def endsMarked (cs : List Char) : Bool := cs.getLast? == some 'e' || cs.getLast? == some 'E'

/-- Read a character: the tokens that end before it, and how far the text has been read with it. -/
def step : Mode → Char → List Token × Mode
  | .between, c => ([], start c)
  | .word cs, c =>
    if isWordPart c then ([], .word (cs ++ [c])) else ([.word (String.ofList cs)], start c)
  | .number cs, c =>
    if isWordPart c ∨ c = '.' then ([], .number (cs ++ [c]))
    else if (c = '+' ∨ c = '-') ∧ endsMarked cs then ([], .signed cs c)
    else ([.number (String.ofList cs)], start c)
  | .signed cs sign, c =>
    if c.isDigit then ([], .number (cs ++ [sign, c]))
    else (.number (String.ofList cs) :: (afterSymbol sign c).1, (afterSymbol sign c).2)
  | .symbol s, c => afterSymbol s c
  | .quoted q cs, c => ([], if c = q.mark then .closing q cs else .quoted q (cs ++ [c]))
  | .closing q cs, c => if c = q.mark then ([], .quoted q (cs ++ [c])) else ([q.token cs], start c)
  | .lineComment, c => ([], if c = '\n' ∨ c = '\r' then .between else .lineComment)
  | .comment, c => ([], if c = '*' then .commentStar else .comment)
  | .commentStar, c => ([], if c = '/' then .between else if c = '*' then .commentStar else .comment)

/-- The tokens that the end of the text completes; none inside quotes or a comment that is not closed. -/
def finish : Mode → Option (List Token)
  | .between => some []
  | .word cs => some [.word (String.ofList cs)]
  | .number cs => some [.number (String.ofList cs)]
  | .signed cs sign => some [.number (String.ofList cs), .symbol (String.ofList [sign])]
  | .symbol s => some [.symbol (String.ofList [s])]
  | .closing q cs => some [q.token cs]
  | .lineComment => some []
  | .quoted _ _ => none
  | .comment => none
  | .commentStar => none

/-- Read characters. -/
def scan : Mode → List Char → List Token × Mode
  | m, [] => ([], m)
  | m, c :: cs => ((m.step c).1 ++ ((m.step c).2.scan cs).1, ((m.step c).2.scan cs).2)

end Mode

/-- The tokens of a statement text, unless it ends inside quotes or a comment. -/
def tokens? (text : String) : Option (List Token) :=
  (Mode.between.scan text.toList).2.finish.map ((Mode.between.scan text.toList).1 ++ ·)

theorem isSpace_of_isWordPart {c : Char} (h : isWordPart c = true) : isSpace c = false := by
  rw [← Bool.not_eq_true]
  intro hspace
  simp only [isSpace, Char.isWhitespace, Bool.or_eq_true, beq_iff_eq, decide_eq_true_eq] at hspace
  rcases hspace with ((((rfl | rfl) | rfl) | rfl) | rfl) | rfl <;> revert h <;> decide

namespace Mode

/-- A character of a word begins a number or a word. -/
theorem start_of_isWordPart {c : Char} (h : isWordPart c = true) :
    start c = if c.isDigit then .number [c] else .word [c] := by
  have hname : c ≠ '"' := by rintro rfl; revert h; decide
  have hliteral : c ≠ '\'' := by rintro rfl; revert h; decide
  simp only [start, isSpace_of_isWordPart h, hname, hliteral, h, Bool.false_eq_true, if_false, if_true]

theorem step_between (c : Char) : Mode.between.step c = ([], start c) := rfl

theorem scan_cons (m : Mode) (c : Char) (cs : List Char) :
    m.scan (c :: cs) = ((m.step c).1 ++ ((m.step c).2.scan cs).1, ((m.step c).2.scan cs).2) := rfl

theorem scan_append (m : Mode) (xs ys : List Char) :
    m.scan (xs ++ ys) = ((m.scan xs).1 ++ ((m.scan xs).2.scan ys).1, ((m.scan xs).2.scan ys).2) := by
  induction xs generalizing m with
  | nil => rfl
  | cons c xs ih => simp only [List.cons_append, scan, ih, List.append_assoc]

/-! ## Quoted texts -/

/-- Inside quotes, doubled characters are read as they were. -/
theorem scan_doubled (q : Quote) (cs before : List Char) :
    (Mode.quoted q before).scan (doubled q.mark cs) = ([], .quoted q (before ++ cs)) := by
  induction cs generalizing before with
  | nil => simp [doubled, scan]
  | cons c cs ih =>
    by_cases h : c = q.mark
    · subst h
      simp [doubled, scan, step, ih]
    · simp [doubled, scan, step, h, ih]

/-- A quoted text is read up to the quote that closes it. -/
theorem scan_quoted (q : Quote) (cs : List Char) :
    Mode.between.scan (quotedWith q.mark cs) = ([], .closing q cs) := by
  have hopen : start q.mark = .quoted q [] := by cases q <;> decide
  simp only [quotedWith, List.cons_append, scan, step, hopen, scan_append, scan_doubled, List.nil_append,
    if_true]

/-! ## Words -/

theorem scan_word {cs : List Char} (h : cs.all isWordPart = true) (before : List Char) :
    (Mode.word before).scan cs = ([], .word (before ++ cs)) := by
  induction cs generalizing before with
  | nil => simp [scan]
  | cons c cs ih =>
    rw [List.all_cons, Bool.and_eq_true] at h
    simp [scan, step, h.1, ih h.2]

/-! ## Ends of tokens -/

/-- The character ends what is read, and begins something new. -/
def EndsAt (m : Mode) (c : Char) : Prop := ∃ ts, m.finish = some ts ∧ m.step c = (ts, start c)

theorem endsAt_between (c : Char) : Mode.between.EndsAt c := ⟨[], rfl, rfl⟩

theorem endsAt_word {cs : List Char} {c : Char} (h : isWordPart c = false) : (Mode.word cs).EndsAt c :=
  ⟨_, rfl, by simp [step, h]⟩

theorem endsAt_closing {q : Quote} {cs : List Char} {c : Char} (h : c ≠ q.mark) :
    (Mode.closing q cs).EndsAt c := ⟨_, rfl, by simp [step, h]⟩

/-- No symbol, comment or number of more characters begins with a parenthesis. -/
theorem endsAt_parenthesis {s : Char} (h : s = '(' ∨ s = ')') (c : Char) : (Mode.symbol s).EndsAt c := by
  refine ⟨_, rfl, ?_⟩
  rcases h with rfl | rfl <;> simp [step, afterSymbol, symbolPairs]

end Mode

/-! ## Texts that read as tokens -/

/-- The characters read as tokens; the mode is that at their end. -/
def Reads (cs : List Char) (ts : List Token) (m : Mode) : Prop :=
  (Mode.between.scan cs).2 = m ∧ ∃ last, m.finish = some last ∧ ts = (Mode.between.scan cs).1 ++ last

namespace Reads

variable {cs ds : List Char} {ts us : List Token} {m m' : Mode} {c : Char}

theorem tokens?_eq {text : String} (h : Reads text.toList ts m) : tokens? text = some ts := by
  obtain ⟨hmode, last, hlast, rfl⟩ := h
  rw [tokens?, hmode, hlast]
  rfl

/-- Tokens that the next character ends stay as they are. -/
theorem append (h : Reads cs ts m) (h' : Reads ds us m') (hhead : ds.head? = some c) (hends : m.EndsAt c) :
    Reads (cs ++ ds) (ts ++ us) m' := by
  obtain ⟨ds, rfl⟩ := List.head?_eq_some_iff.mp hhead
  obtain ⟨hmode, last, hlast, rfl⟩ := h
  obtain ⟨hmode', last', hlast', rfl⟩ := h'
  obtain ⟨ended, hended, hstep⟩ := hends
  obtain rfl : ended = last := Option.some.inj (hended.symm.trans hlast)
  have hscan : m.scan (c :: ds) =
      (ended ++ (Mode.between.scan (c :: ds)).1, (Mode.between.scan (c :: ds)).2) := by
    simp only [Mode.scan_cons, hstep, Mode.step_between, List.nil_append]
  refine ⟨?_, last', hlast', ?_⟩
  · rw [Mode.scan_append, hmode, hscan, hmode']
  · rw [Mode.scan_append, hmode, hscan]
    simp only [List.append_assoc]

theorem nil : Reads [] [] .between := ⟨rfl, [], rfl, rfl⟩

/-- A blank in front is no token. -/
theorem cons_space (h : Reads cs ts m) : Reads (' ' :: cs) ts m := h

/-- A text in quotes is one token. -/
theorem quoted (q : Quote) (cs : List Char) : Reads (quotedWith q.mark cs) [q.token cs] (.closing q cs) := by
  have hscan := Mode.scan_quoted q cs
  refine ⟨congrArg Prod.snd hscan, [q.token cs], rfl, ?_⟩
  rw [congrArg Prod.fst hscan]
  rfl

/-- Quotes are taken off, backslashes stay, and a comment is no token. -/
example : tokens? "\"a\"\"b\".c <> 'it''s \\' -- end" =
    some [.name "a\"b", .symbol ".", .word "c", .symbol "<>", .literal "it's \\"] := by decide

/-- Two quotes do not close. -/
example : tokens? "c = 'open''" = none := by decide

theorem quotedName (n : String) : Reads (quotedName n).toList [.name n] (.closing .name n.toList) := by
  simpa [Sql.quotedName, Quote.token, Quote.mark] using quoted .name n.toList

theorem quotedText (s : String) : Reads (quotedText s).toList [.literal s] (.closing .literal s.toList) := by
  simpa [Sql.quotedText, Quote.token, Quote.mark] using quoted .literal s.toList

/-- A word is one token. -/
theorem word (h : isPlain cs = true) : Reads cs [.word (String.ofList cs)] (.word cs) := by
  rw [isPlain, Bool.and_eq_true] at h
  cases cs with
  | nil => simp at h
  | cons c cs =>
    have hdigit : c.isDigit = false := by simpa using h.2
    have hparts := h.1
    rw [List.all_cons, Bool.and_eq_true] at hparts
    have hscan : Mode.between.scan (c :: cs) = ([], .word (c :: cs)) := by
      rw [Mode.scan_cons, Mode.step_between, Mode.start_of_isWordPart hparts.1, hdigit]
      simp [Mode.scan_word hparts.2]
    exact ⟨congrArg Prod.snd hscan, _, rfl, by rw [congrArg Prod.fst hscan]; rfl⟩

theorem head?_quotedName (n : String) : (Sql.quotedName n).toList.head? = some '"' := by
  simp [Sql.quotedName, quotedWith]

theorem head?_quotedText (s : String) : (Sql.quotedText s).toList.head? = some '\'' := by
  simp [Sql.quotedText, quotedWith]

end Reads

/-! ## Texts between blanks -/

/-- The text reads as the tokens, also where a blank follows it. -/
def Stands (text : String) (ts : List Token) : Prop := ∃ m, Reads text.toList ts m ∧ m.EndsAt ' '

namespace Stands

variable {s t : String} {ts us : List Token}

theorem tokens?_eq (h : Stands s ts) : tokens? s = some ts := by
  obtain ⟨m, hm, -⟩ := h
  exact hm.tokens?_eq

/-- A blank keeps the tokens on both sides apart. -/
theorem append (h : Stands s ts) (h' : Stands t us) : Stands (s ++ " " ++ t) (ts ++ us) := by
  obtain ⟨m, hm, hends⟩ := h
  obtain ⟨m', hm', hends'⟩ := h'
  refine ⟨m', ?_, hends'⟩
  have happend := hm.append hm'.cons_space rfl hends
  simpa using happend

theorem quotedText (s : String) : Stands (quotedText s) [.literal s] :=
  ⟨_, Reads.quotedText s, Mode.endsAt_closing (by decide)⟩

/-- A word is one token. -/
theorem word (w : String) (h : isPlain w.toList = true) : Stands w [.word w] := by
  have hends : (Mode.word w.toList).EndsAt ' ' := Mode.endsAt_word (by decide)
  refine ⟨_, ?_, hends⟩
  simpa using Reads.word h

end Stands

/-! ## Numerals -/

/-- The characters of a token as a statement writes it. -/
def Token.spelled : Token → List Char
  | .name n => (quotedName n).toList
  | .literal s => (quotedText s).toList
  | .word w => w.toList
  | .number n => n.toList
  | .symbol s => s.toList

/-- A token that a numeral may read as: a number, a word, a point or a sign. -/
def Token.InNumeral : Token → Prop
  | .name _ => False
  | .literal _ => False
  | .word _ => True
  | .number _ => True
  | .symbol s => s = "." ∨ s = "+" ∨ s = "-"

/-- A character of a numeral. -/
def NumeralPart (c : Char) : Prop := isWordPart c = true ∨ c = '.' ∨ c = '+' ∨ c = '-'

namespace Mode

/-- The characters of the token that may still go on. -/
def pending : Mode → List Char
  | .word cs => cs
  | .number cs => cs
  | .signed cs sign => cs ++ [sign]
  | .symbol s => [s]
  | _ => []

@[simp] theorem pending_between : Mode.between.pending = [] := rfl
@[simp] theorem pending_word (cs : List Char) : (Mode.word cs).pending = cs := rfl
@[simp] theorem pending_number (cs : List Char) : (Mode.number cs).pending = cs := rfl
@[simp] theorem pending_signed (cs : List Char) (sign : Char) :
    (Mode.signed cs sign).pending = cs ++ [sign] := rfl
@[simp] theorem pending_symbol (s : Char) : (Mode.symbol s).pending = [s] := rfl

/-- A numeral may have been read so far. -/
inductive InNumeral : Mode → Prop
  | between : InNumeral .between
  | word (cs : List Char) : InNumeral (.word cs)
  | number (cs : List Char) : InNumeral (.number cs)
  | signed (cs : List Char) {sign : Char} : sign = '+' ∨ sign = '-' → InNumeral (.signed cs sign)
  | symbol {s : Char} : s = '.' ∨ s = '+' ∨ s = '-' → InNumeral (.symbol s)

variable {m : Mode} {c s : Char}

theorem inNumeral_start (h : NumeralPart c) : (start c).InNumeral ∧ (start c).pending = [c] := by
  rcases h with h | h
  · rw [start_of_isWordPart h]
    split
    · exact ⟨.number _, rfl⟩
    · exact ⟨.word _, rfl⟩
  · have hstart : start c = .symbol c := by rcases h with rfl | rfl | rfl <;> decide
    rw [hstart]
    exact ⟨.symbol h, rfl⟩

/-- What reading characters of a numeral keeps: the tokens that end and the characters that are pending
spell what was read. -/
def Spells (m : Mode) (cs : List Char) (r : List Token × Mode) : Prop :=
  r.2.InNumeral ∧ (∀ t ∈ r.1, t.InNumeral) ∧ r.1.flatMap Token.spelled ++ r.2.pending = m.pending ++ cs

theorem spells_afterSymbol (hs : s = '.' ∨ s = '+' ∨ s = '-') (hc : NumeralPart c)
    (hminus : s = '-' → c ≠ '-') : (Mode.symbol s).Spells [c] (afterSymbol s c) := by
  have hline : ¬ (s = '-' ∧ c = '-') := fun h => hminus h.1 h.2
  have hcomment : ¬ (s = '/' ∧ c = '*') := by rcases hs with rfl | rfl | rfl <;> simp
  have hpair : (s, c) ∉ symbolPairs := by rcases hs with rfl | rfl | rfl <;> simp [symbolPairs]
  simp only [afterSymbol, hline, hcomment, hpair, if_false]
  split
  · exact ⟨.number _, by simp, by simp⟩
  · obtain ⟨hmode, hpending⟩ := inNumeral_start hc
    refine ⟨hmode, ?_, ?_⟩
    · rcases hs with rfl | rfl | rfl <;> simp [Token.InNumeral]
    · simp [Token.spelled, hpending]

theorem InNumeral.step (h : m.InNumeral) (hc : NumeralPart c)
    (hminus : m.pending.getLast? = some '-' → c ≠ '-') : m.Spells [c] (m.step c) := by
  obtain ⟨hstart, hpending⟩ := inNumeral_start hc
  cases h with
  | between => exact ⟨hstart, by simp [Mode.step], by simp [Mode.step, hpending]⟩
  | word cs =>
    simp only [Mode.step]
    split
    · exact ⟨.word _, by simp, by simp⟩
    · exact ⟨hstart, by simp [Token.InNumeral], by simp [Token.spelled, hpending]⟩
  | number cs =>
    simp only [Mode.step]
    split
    · exact ⟨.number _, by simp, by simp⟩
    · split
      · next hsign => exact ⟨.signed _ hsign.1, by simp, by simp⟩
      · exact ⟨hstart, by simp [Token.InNumeral], by simp [Token.spelled, hpending]⟩
  | @signed cs sign hsign =>
    simp only [Mode.step]
    split
    · exact ⟨.number _, by simp, by simp⟩
    · have hlast : sign = '-' → c ≠ '-' := fun h => hminus (by simp [h])
      obtain ⟨hmode, htokens, hspelled⟩ := spells_afterSymbol (.inr hsign) hc hlast
      refine ⟨hmode, ?_, ?_⟩
      · simpa [Token.InNumeral] using htokens
      · simpa [Token.spelled] using hspelled
  | symbol hs =>
    exact spells_afterSymbol hs hc fun h => hminus (by simp [h])

/-- The blank behind a numeral ends it. -/
theorem InNumeral.finish (h : m.InNumeral) :
    ∃ last, m.finish = some last ∧ m.step ' ' = (last, start ' ') ∧ (∀ t ∈ last, t.InNumeral) ∧
      last.flatMap Token.spelled = m.pending := by
  cases h with
  | between => exact ⟨[], rfl, rfl, by simp, rfl⟩
  | word cs =>
    exact ⟨_, rfl, rfl, by simp [Token.InNumeral], by simp [Token.spelled]⟩
  | number cs =>
    exact ⟨_, rfl, rfl, by simp [Token.InNumeral], by simp [Token.spelled]⟩
  | signed cs hsign =>
    refine ⟨_, rfl, ?_, ?_, by simp [Token.spelled]⟩
    · rcases hsign with rfl | rfl <;> rfl
    · rcases hsign with rfl | rfl <;> simp [Token.InNumeral]
  | symbol hs =>
    refine ⟨_, rfl, ?_, ?_, by simp [Token.spelled]⟩
    · rcases hs with rfl | rfl | rfl <;> rfl
    · rcases hs with rfl | rfl | rfl <;> simp [Token.InNumeral]

theorem InNumeral.scan (h : m.InNumeral) {cs : List Char} (hcs : ∀ c ∈ cs, NumeralPart c)
    (hminus : (m.pending ++ cs).IsChain fun a b => a = '-' → b ≠ '-') : m.Spells cs (m.scan cs) := by
  induction cs generalizing m with
  | nil => exact ⟨h, by simp [Mode.scan], by simp [Mode.scan]⟩
  | cons c cs ih =>
    obtain ⟨hc, hcs⟩ := List.forall_mem_cons.mp hcs
    have hlast : m.pending.getLast? = some '-' → c ≠ '-' := fun hm =>
      (List.isChain_append.mp hminus).2.2 '-' hm c rfl rfl
    obtain ⟨hmode, htokens, hspelled⟩ := h.step hc hlast
    -- what is pending next ends what was read so far
    have hrest : ((m.step c).2.pending ++ cs).IsChain fun a b => a = '-' → b ≠ '-' := by
      rw [List.append_cons, ← hspelled, List.append_assoc] at hminus
      exact hminus.right_of_append
    obtain ⟨hmode', htokens', hspelled'⟩ := ih hmode hcs hrest
    refine ⟨hmode', fun t ht => ?_, ?_⟩
    · exact (List.mem_append.mp ht).elim (htokens t) (htokens' t)
    · rw [scan_cons, List.flatMap_append, List.append_assoc, hspelled', ← List.append_assoc, hspelled,
        List.append_assoc, List.singleton_append]

end Mode

/-- A text of the characters of numerals in which no two minus signs meet reads as such tokens alone, which
spell it. -/
theorem Stands.numeral {text : String} (h : ∀ c ∈ text.toList, NumeralPart c)
    (hminus : text.toList.IsChain fun a b => a = '-' → b ≠ '-') :
    ∃ ts, Stands text ts ∧ (∀ t ∈ ts, t.InNumeral) ∧ ts.flatMap Token.spelled = text.toList := by
  obtain ⟨hmode, htokens, hspelled⟩ := Mode.InNumeral.between.scan h hminus
  obtain ⟨last, hfinish, hstep, hlast, hpending⟩ := hmode.finish
  have hstands : Stands text ((Mode.between.scan text.toList).1 ++ last) :=
    ⟨_, ⟨rfl, last, hfinish, rfl⟩, last, hfinish, hstep⟩
  refine ⟨_, hstands, ?_, ?_⟩
  · exact fun t ht => (List.mem_append.mp ht).elim (htokens t) (hlast t)
  · rw [List.flatMap_append, hpending, hspelled, Mode.pending_between, List.nil_append]

end AdhocReport.Sql
