import AdhocReport.Proofs.Expression.Scanning
set_option autoImplicit false

/-!
# Expressions: reading by positions is safe

Every step by positions takes the same course as the step of the parser on the tokens that are left, and it
stops in one of two ways only: with a value and a position of a token behind the ones that it has read, or with
the syntax error that the parser reports, at the position of a token.  What carries this is that the end marker
is the last token and the only one of its kind: a token that is not the end marker has one behind it.
-/

namespace AdhocReport

namespace Cursor

open Outcome (bind_ok bind_eq_ok)

/-! ## Readings -/

/-- The two readings come to the same: to a value, with the tokens behind a position that is not below `low`,
or to a syntax error at one of the tokens. -/
inductive Settles {α : Type} (tokens : List Token) (low : ℕ) :
    Except Halt (α × ℕ) → Except SyntaxError (α × List Token) → Prop
  | done {a : α} {i : ℕ} : low ≤ i → i < tokens.length → Settles tokens low (.ok (a, i)) (.ok (a, tokens.drop i))
  | refused {e : SyntaxError} {t : Token} : t ∈ tokens → e.position = t.position →
      Settles tokens low (.error (.refused e)) (.error e)

section

variable {tokens : List Token} {low low' : ℕ}

/-- Readings that come to the same go on to the same. -/
theorem Settles.bind {α β : Type} {x : Except Halt (α × ℕ)} {y : Except SyntaxError (α × List Token)}
    {f : α × ℕ → Except Halt (β × ℕ)} {g : α × List Token → Except SyntaxError (β × List Token)}
    (h : Settles tokens low x y)
    (hnext : ∀ a i, low ≤ i → i < tokens.length → Settles tokens low' (f (a, i)) (g (a, tokens.drop i))) :
    Settles tokens low' (x >>= f) (y >>= g) := by
  cases h with
  | done hlow hi => exact hnext _ _ hlow hi
  | refused ht he => exact .refused ht he

theorem Settles.mono {α : Type} {x : Except Halt (α × ℕ)} {y : Except SyntaxError (α × List Token)}
    (h : Settles tokens low x y) (hle : low' ≤ low) : Settles tokens low' x y := by
  cases h with
  | done hlow hi => exact .done (hle.trans hlow) hi
  | refused ht he => exact .refused ht he

theorem at?_eq {i : ℕ} (h : i < tokens.length) : at? tokens i = .ok tokens[i] := by
  rw [at?, List.getElem?_eq_getElem h]

/-- A token that is not the end marker has a token behind it. -/
theorem Readable.succ_lt (h : Readable tokens) {i : ℕ} (hi : i < tokens.length) (hkind : tokens[i].kind ≠ .ending) :
    i + 1 < tokens.length := by
  obtain ⟨body, eof, rfl, heof, -⟩ := h.marked
  rw [List.length_append, List.length_singleton] at hi ⊢
  by_contra hlast
  obtain rfl : i = body.length := by omega
  rw [List.getElem_concat_length rfl] at hkind
  exact hkind heof

/-- The token before the end marker is the last of the others. -/
theorem Readable.before_ending (h : Readable tokens) {i : ℕ} (hi : i < tokens.length)
    (hkind : tokens[i].kind = .ending) : before tokens i = .ok tokens.dropLast.getLast? := by
  obtain ⟨body, eof, rfl, -, hbody⟩ := h.marked
  rw [List.length_append, List.length_singleton] at hi
  have hend : i = body.length := by
    by_contra hne
    have hin : i < body.length := by omega
    rw [List.getElem_append_left hin] at hkind
    exact hbody _ (List.getElem_mem hin) hkind
  subst hend
  rw [List.dropLast_concat, before]
  split
  · rename_i hnone
    rw [List.length_eq_zero_iff.mp hnone]
    rfl
  · rename_i hsome
    have hin : body.length - 1 < body.length := by omega
    rw [at?, List.getElem?_append_left hin, List.getLast?_eq_getElem?, List.getElem?_eq_getElem hin]
    rfl

/-- An end where an operand is expected is reported at a token: at the one before it or at itself. -/
theorem endError_position {t : Token} (ht : t ∈ tokens) :
    ∃ u ∈ tokens, (Parser.endError tokens.dropLast.getLast? t.position).position = u.position := by
  unfold Parser.endError
  split
  · rename_i previous hprevious
    split
    · exact ⟨previous, List.dropLast_subset _ (List.mem_of_getLast? hprevious), rfl⟩
    · exact ⟨t, ht, rfl⟩
  · exact ⟨t, ht, rfl⟩

/-- Only the end of the text looks back when no operand is found. -/
theorem operandError_eq {t : Token} (h : t.kind ≠ .ending) (last last' : Option Token) :
    Parser.operandError last t = Parser.operandError last' t := by
  unfold Parser.operandError
  split
  · exact absurd ‹_› h
  all_goals rfl

theorem operandError_position {t : Token} (h : t.kind ≠ .ending) (last : Option Token) :
    (Parser.operandError last t).position = t.position := by
  unfold Parser.operandError
  split
  · exact absurd ‹_› h
  all_goals rfl

theorem closing_settles (h : Readable tokens) {α : Type} {i : ℕ} (hi : i < tokens.length) (hlow : low ≤ i) (a : α) :
    Settles tokens low (do let i ← closing tokens i; .ok (a, i))
      (do let rest ← Parser.closing (tokens.drop i); .ok (a, rest)) := by
  rw [closing, at?_eq hi, bind_ok, List.drop_eq_getElem_cons hi, Parser.closing]
  split
  · rename_i hkind
    exact .done (by omega) (h.succ_lt hi (by simp [beq_iff_eq.mp hkind]))
  · exact .refused (List.getElem_mem hi) rfl

end

/-! ## Steps -/

section

variable (tokens : List Token)

/-- A step by positions settles with a step on the tokens that are left, wherever the fuel of both reaches to
the end: each token is read within six nested calls, and a turn of a loop costs one more. -/
def Follows {α : Type} (slack skip fuel : ℕ) (x : ℕ → Except Halt (α × ℕ))
    (y : ℕ → List Token → Except SyntaxError (α × List Token)) : Prop :=
  ∀ fuel' i, i < tokens.length → 8 * tokens.length + 4 ≤ fuel + 8 * i + slack →
    8 * tokens.length + 4 ≤ fuel' + 8 * i + slack → Settles tokens (i + skip) (x i) (y fuel' (tokens.drop i))

/-- All steps with this fuel follow those of the parser. -/
structure Agrees (fuel : ℕ) : Prop where
  expression : Follows tokens 4 1 fuel (expression tokens fuel) (Parser.expression tokens.dropLast.getLast?)
  sums : ∀ left, Follows tokens 4 0 fuel (sums tokens fuel left)
    fun fuel' => Parser.sums tokens.dropLast.getLast? fuel' left
  term : Follows tokens 5 1 fuel (term tokens fuel) (Parser.term tokens.dropLast.getLast?)
  products : ∀ left, Follows tokens 4 0 fuel (products tokens fuel left)
    fun fuel' => Parser.products tokens.dropLast.getLast? fuel' left
  factor : Follows tokens 6 1 fuel (factor tokens fuel) (Parser.factor tokens.dropLast.getLast?)
  primary : ∀ fuel' i, (hi : i < tokens.length) → 8 * tokens.length + 4 ≤ fuel + 8 * i + 7 →
    8 * tokens.length + 4 ≤ fuel' + 8 * i + 7 → Settles tokens (i + 1) (primary tokens fuel i)
      (Parser.primary tokens.dropLast.getLast? fuel' tokens[i] (tokens.drop (i + 1)))
  named : ∀ t ∈ tokens, Follows tokens 0 0 fuel (named tokens fuel t)
    fun fuel' => Parser.named tokens.dropLast.getLast? fuel' t
  arguments : Follows tokens 3 0 fuel (arguments tokens fuel) (Parser.arguments tokens.dropLast.getLast?)
  moreArguments : Follows tokens 4 0 fuel (moreArguments tokens fuel)
    (Parser.moreArguments tokens.dropLast.getLast?)

end

section

variable {tokens : List Token} {fuel : ℕ}

/-- A step without fuel reaches no position. -/
theorem follows_zero {α : Type} {slack skip : ℕ} (hslack : slack < 12) {x : ℕ → Except Halt (α × ℕ)}
    {y : ℕ → List Token → Except SyntaxError (α × List Token)} : Follows tokens slack skip 0 x y := by
  intro fuel' i hi hfuel _
  omega

/-- A step with more fuel follows if it does wherever the fuel is not all used up. -/
theorem follows_succ {α : Type} {slack skip : ℕ} (hslack : slack < 12) {x : ℕ → Except Halt (α × ℕ)}
    {y : ℕ → List Token → Except SyntaxError (α × List Token)}
    (h : ∀ fuel' i, (hi : i < tokens.length) → 8 * tokens.length + 3 ≤ fuel + 8 * i + slack →
      8 * tokens.length + 3 ≤ fuel' + 8 * i + slack →
      Settles tokens (i + skip) (x i) (y (fuel' + 1) (tokens[i] :: tokens.drop (i + 1)))) :
    Follows tokens slack skip (fuel + 1) x y := by
  intro fuel' i hi hfuel hfuel'
  obtain ⟨fuel', rfl⟩ := Nat.exists_eq_add_one.mpr (show 0 < fuel' by omega)
  rw [List.drop_eq_getElem_cons hi]
  exact h fuel' i hi (by omega) (by omega)

theorem Agrees.expression_succ (h : Agrees tokens fuel) :
    Follows tokens 4 1 (fuel + 1) (Cursor.expression tokens (fuel + 1))
      (Parser.expression tokens.dropLast.getLast?) := by
  refine follows_succ (by decide) fun fuel' i hi hfuel hfuel' => ?_
  rw [Cursor.expression, Parser.expression, ← List.drop_eq_getElem_cons hi]
  refine (h.term fuel' i hi (by omega) (by omega)).bind fun left j hlow hj => ?_
  exact (h.sums left fuel' j hj (by omega) (by omega)).mono hlow

theorem Agrees.sums_succ (h : Agrees tokens fuel) (hread : Readable tokens) (left : Expr) :
    Follows tokens 4 0 (fuel + 1) (Cursor.sums tokens (fuel + 1) left)
      fun fuel' => Parser.sums tokens.dropLast.getLast? fuel' left := by
  refine follows_succ (by decide) fun fuel' i hi hfuel hfuel' => ?_
  rw [Cursor.sums, at?_eq hi, bind_ok, Parser.sums]
  cases hop : tokens[i].additive? with
  | none =>
    rw [← List.drop_eq_getElem_cons hi]
    exact .done le_rfl hi
  | some op =>
    have hkind := (Token.additive?_eq_some_iff.mp hop).2.1
    have hnext := hread.succ_lt hi (by simp [hkind])
    refine (h.term fuel' (i + 1) hnext (by omega) (by omega)).bind fun right j hlow hj => ?_
    exact (h.sums _ fuel' j hj (by omega) (by omega)).mono (by omega)

theorem Agrees.term_succ (h : Agrees tokens fuel) :
    Follows tokens 5 1 (fuel + 1) (Cursor.term tokens (fuel + 1)) (Parser.term tokens.dropLast.getLast?) := by
  refine follows_succ (by decide) fun fuel' i hi hfuel hfuel' => ?_
  rw [Cursor.term, Parser.term, ← List.drop_eq_getElem_cons hi]
  refine (h.factor fuel' i hi (by omega) (by omega)).bind fun left j hlow hj => ?_
  exact (h.products left fuel' j hj (by omega) (by omega)).mono hlow

theorem Agrees.products_succ (h : Agrees tokens fuel) (hread : Readable tokens) (left : Expr) :
    Follows tokens 4 0 (fuel + 1) (Cursor.products tokens (fuel + 1) left)
      fun fuel' => Parser.products tokens.dropLast.getLast? fuel' left := by
  refine follows_succ (by decide) fun fuel' i hi hfuel hfuel' => ?_
  rw [Cursor.products, at?_eq hi, bind_ok, Parser.products]
  cases hop : tokens[i].multiplicative? with
  | none =>
    rw [← List.drop_eq_getElem_cons hi]
    exact .done le_rfl hi
  | some op =>
    have hkind := (Token.multiplicative?_eq_some_iff.mp hop).2.1
    have hnext := hread.succ_lt hi (by simp [hkind])
    refine (h.factor fuel' (i + 1) hnext (by omega) (by omega)).bind fun right j hlow hj => ?_
    exact (h.products _ fuel' j hj (by omega) (by omega)).mono (by omega)

theorem Agrees.factor_succ (h : Agrees tokens fuel) (hread : Readable tokens) :
    Follows tokens 6 1 (fuel + 1) (Cursor.factor tokens (fuel + 1)) (Parser.factor tokens.dropLast.getLast?) := by
  refine follows_succ (by decide) fun fuel' i hi hfuel hfuel' => ?_
  rw [Cursor.factor, at?_eq hi, bind_ok, Parser.factor]
  cases hsign : tokens[i].sign? with
  | none => exact h.primary fuel' i hi (by omega) (by omega)
  | some sign =>
    have hkind := (Token.sign?_eq_some_iff.mp hsign).1
    have hnext := hread.succ_lt hi (by simp [hkind])
    refine (h.factor fuel' (i + 1) hnext (by omega) (by omega)).bind fun operand j hlow hj => ?_
    exact .done (by omega) hj

theorem Agrees.arguments_succ (h : Agrees tokens fuel) :
    Follows tokens 3 0 (fuel + 1) (Cursor.arguments tokens (fuel + 1))
      (Parser.arguments tokens.dropLast.getLast?) := by
  refine follows_succ (by decide) fun fuel' i hi hfuel hfuel' => ?_
  rw [Cursor.arguments, at?_eq hi, bind_ok, Parser.arguments, ← List.drop_eq_getElem_cons hi]
  split
  · exact .done le_rfl hi
  · refine (h.expression fuel' i hi (by omega) (by omega)).bind fun first j hlow hj => ?_
    refine (h.moreArguments fuel' j hj (by omega) (by omega)).bind fun others k hlow' hk => ?_
    exact .done (by omega) hk

theorem Agrees.moreArguments_succ (h : Agrees tokens fuel) (hread : Readable tokens) :
    Follows tokens 4 0 (fuel + 1) (Cursor.moreArguments tokens (fuel + 1))
      (Parser.moreArguments tokens.dropLast.getLast?) := by
  refine follows_succ (by decide) fun fuel' i hi hfuel hfuel' => ?_
  rw [Cursor.moreArguments, at?_eq hi, bind_ok, Parser.moreArguments]
  split
  · rename_i hkind
    have hnext := hread.succ_lt hi (by simp [beq_iff_eq.mp hkind])
    refine (h.expression fuel' (i + 1) hnext (by omega) (by omega)).bind fun next j hlow hj => ?_
    refine (h.moreArguments fuel' j hj (by omega) (by omega)).bind fun others k hlow' hk => ?_
    exact .done (by omega) hk
  · rw [← List.drop_eq_getElem_cons hi]
    exact .done le_rfl hi

theorem Agrees.named_succ (h : Agrees tokens fuel) (hread : Readable tokens) {t : Token} (ht : t ∈ tokens) :
    Follows tokens 0 0 (fuel + 1) (Cursor.named tokens (fuel + 1) t)
      fun fuel' => Parser.named tokens.dropLast.getLast? fuel' t := by
  refine follows_succ (by decide) fun fuel' i hi hfuel hfuel' => ?_
  rw [Cursor.named, at?_eq hi, bind_ok, Parser.named]
  dsimp only
  split
  · rename_i hkind
    have hnext := hread.succ_lt hi (by simp [beq_iff_eq.mp hkind])
    cases Function.ofName? (Text.lower t.written) with
    | none => exact .refused ht rfl
    | some f =>
      refine (h.arguments fuel' (i + 1) hnext (by omega) (by omega)).bind fun args j hlow hj => ?_
      exact closing_settles hread hj (by omega) _
  · rw [← List.drop_eq_getElem_cons hi]
    split
    · exact .done le_rfl hi
    · split
      · exact .done le_rfl hi
      · exact .refused ht rfl

theorem Agrees.primary_succ (h : Agrees tokens fuel) (hread : Readable tokens) {fuel' i : ℕ}
    (hi : i < tokens.length) (hfuel : 8 * tokens.length + 4 ≤ fuel + 1 + 8 * i + 7)
    (hfuel' : 8 * tokens.length + 4 ≤ fuel' + 8 * i + 7) :
    Settles tokens (i + 1) (Cursor.primary tokens (fuel + 1) i)
      (Parser.primary tokens.dropLast.getLast? fuel' tokens[i] (tokens.drop (i + 1))) := by
  obtain ⟨fuel', rfl⟩ := Nat.exists_eq_add_one.mpr (show 0 < fuel' by omega)
  have hmem := List.getElem_mem hi
  have hnext := hread.succ_lt hi
  rw [Cursor.primary, at?_eq hi, bind_ok, Parser.primary]
  cases hkind : tokens[i].kind with
  | number =>
    dsimp only
    rw [hread.number _ hmem hkind]
    exact .done le_rfl (hnext (by simp [hkind]))
  | text => exact .done le_rfl (hnext (by simp [hkind]))
  | reference =>
    dsimp only
    rw [hread.reference _ hmem hkind]
    exact .done le_rfl (hnext (by simp [hkind]))
  | name => exact h.named _ hmem fuel' (i + 1) (hnext (by simp [hkind])) (by omega) (by omega)
  | opening =>
    refine (h.expression fuel' (i + 1) (hnext (by simp [hkind])) (by omega) (by omega)).bind
      fun inner j hlow hj => ?_
    exact closing_settles hread hj (by omega) _
  | ending =>
    obtain ⟨u, hu, hposition⟩ := endError_position hmem
    dsimp only
    rw [hread.before_ending hi hkind, bind_ok, Parser.operandError, hkind]
    exact .refused hu hposition
  | closing | operator | comma =>
    have hmark : tokens[i].kind ≠ .ending := by simp [hkind]
    dsimp only
    rw [operandError_eq hmark none tokens.dropLast.getLast?]
    exact .refused hmem (operandError_position hmark _)

/-- The steps follow those of the parser with any fuel. -/
theorem agrees (hread : Readable tokens) (fuel : ℕ) : Agrees tokens fuel := by
  induction fuel with
  | zero =>
    refine ⟨follows_zero (by decide), fun _ => follows_zero (by decide), follows_zero (by decide),
      fun _ => follows_zero (by decide), follows_zero (by decide), fun fuel' i hi hfuel _ => ?_,
      fun _ _ => follows_zero (by decide), follows_zero (by decide), follows_zero (by decide)⟩
    omega
  | succ fuel ih =>
    exact ⟨ih.expression_succ, ih.sums_succ hread, ih.term_succ, ih.products_succ hread, ih.factor_succ hread,
      fun _ _ hi hfuel hfuel' => ih.primary_succ hread hi hfuel hfuel', fun _ ht => ih.named_succ hread ht,
      ih.arguments_succ, ih.moreArguments_succ hread⟩

/-! ## Texts -/

/-- The two parsers come to the same, for tokens and for texts: to a tree, or to a syntax error at a position
within `length`. -/
inductive Parses (length : ℕ) : Except Halt Expr → Except SyntaxError Expr → Prop
  | done {e : Expr} : Parses length (.ok e) (.ok e)
  | refused {e : SyntaxError} : e.position ≤ length → Parses length (.error (.refused e)) (.error e)

theorem Parses.eq_ok {length : ℕ} {x : Except Halt Expr} {e : Expr} (h : Parses length x (.ok e)) : x = .ok e := by
  cases h
  rfl

theorem Parses.eq_refused {length : ℕ} {x : Except Halt Expr} {e : SyntaxError} (h : Parses length x (.error e)) :
    x = .error (.refused e) ∧ e.position ≤ length := by
  cases h with
  | refused hposition => exact ⟨rfl, hposition⟩

theorem ofTokens_parses {length : ℕ} (hread : Readable tokens) (hplaced : ∀ t ∈ tokens, t.position ≤ length)
    (hfuel : 8 * tokens.length ≤ fuel) : Parses length (ofTokens tokens fuel) (Parser.ofTokens tokens) := by
  have hpos : 0 < tokens.length := by
    obtain ⟨body, eof, rfl, -, -⟩ := hread.marked
    simp
  have hsettles := (agrees hread fuel).expression (Parser.fuelFor tokens) 0 hpos (by omega)
    (by simp only [Parser.fuelFor]; omega)
  rw [List.drop_zero] at hsettles
  rw [ofTokens, Parser.ofTokens]
  revert hsettles
  generalize expression tokens fuel 0 = x
  generalize Parser.expression _ _ _ = y
  rintro (@⟨e, i, -, hi⟩ | ⟨ht, hposition⟩)
  · have hplace := hplaced _ (List.getElem_mem hi)
    dsimp only [bind_ok]
    rw [at?_eq hi, bind_ok, List.drop_eq_getElem_cons hi]
    dsimp only
    cases tokens[i].kind with
    | ending => exact .done
    | closing => exact .refused hplace
    | _ => exact .refused hplace
  · exact .refused (hposition ▸ hplaced _ ht)

/-- The parser by positions comes to the same as the parser, with eight units of fuel for each character. -/
theorem parse_parses (text : Option String) (hfuel : 8 * (text.getD "").length + 8 ≤ fuel) :
    Parses (text.getD "").length (parse fuel text) (Expr.parse text) := by
  cases text with
  | none => exact .refused (Nat.zero_le _)
  | some s =>
    rw [Option.getD_some] at hfuel ⊢
    rw [parse, Expr.parse]
    split
    case isTrue => exact .refused (Nat.zero_le _)
    case isFalse =>
      have hscans := scan_scans s (show s.length < fuel by omega)
      revert hscans
      generalize scanFrom _ _ _ = x
      generalize Token.scan s = y
      rintro (⟨hread, hplaced, hcount⟩ | hposition)
      · exact ofTokens_parses hread hplaced (by omega)
      · exact .refused hposition

end

/-- Whatever the text is, reading it ends, and in one of two ways: with its tree and no error, or with no tree and
a syntax error whose position is in the text or directly behind it.  No position behind the end marker or behind
the last character is read, each number and each reference converts, and it is what the parser returns. -/
theorem tryParse_settles (text : Option String) :
    (∃ e, Expr.parse text = .ok e ∧
        ∀ fuel, 8 * (text.getD "").length + 8 ≤ fuel → tryParse fuel text = .ok (some e, none)) ∨
      ∃ e, Expr.parse text = .error e ∧ e.position ≤ (text.getD "").length ∧
        ∀ fuel, 8 * (text.getD "").length + 8 ≤ fuel → tryParse fuel text = .ok (none, some e) := by
  cases hparse : Expr.parse text with
  | ok e =>
    refine .inl ⟨e, rfl, fun fuel hfuel => ?_⟩
    have hparses := parse_parses text hfuel
    rw [hparse] at hparses
    rw [tryParse, hparses.eq_ok]
  | error e =>
    have hrefused (fuel : ℕ) (hfuel : 8 * (text.getD "").length + 8 ≤ fuel) :
        parse fuel text = .error (.refused e) ∧ e.position ≤ (text.getD "").length := by
      have hparses := parse_parses text hfuel
      rw [hparse] at hparses
      exact hparses.eq_refused
    refine .inr ⟨e, rfl, (hrefused _ le_rfl).2, fun fuel hfuel => ?_⟩
    rw [tryParse, (hrefused fuel hfuel).1]

/-- The operator is looked back at from the end marker. -/
example : tryParse 16 (some "-") = .ok (none, some ⟨.danglingOperator "-", 0⟩) := by rfl

end Cursor

end AdhocReport
