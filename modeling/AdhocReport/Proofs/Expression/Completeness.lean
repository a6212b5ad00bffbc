import AdhocReport.Proofs.Expression.Soundness
set_option autoImplicit false

/-!
# Expressions: the parser misses nothing

Tokens that derive a tree are consumed exactly, whatever follows them, and give this tree.  A sum is
parsed by a loop that goes on after each operand, so for sums and products the statement is that the
parser reaches the loop with the whole tree as left operand; what follows then decides whether the
loop goes on.  The fuel that is needed grows with the number of tokens: each token is read within
six nested calls, and a turn of a loop costs one more.
-/

namespace AdhocReport

namespace Token

theorem operator?_eq_none {t : Token} (h : t.kind ≠ .operator) : t.operator? = none := by
  simp [operator?, h]

theorem additive?_eq_none {t : Token} (h : t.kind ≠ .operator) : t.additive? = none := by
  simp [additive?, operator?_eq_none h]

theorem multiplicative?_eq_none {t : Token} (h : t.kind ≠ .operator) : t.multiplicative? = none := by
  simp [multiplicative?, operator?_eq_none h]

theorem sign?_eq_none {t : Token} (h : t.kind ≠ .operator) : t.sign? = none := by
  simp [sign?, h]

/-- An additive operator is no multiplicative one. -/
theorem multiplicative?_eq_none_of_additive? {t : Token} {op : Operator} (h : t.additive? = some op) :
    t.multiplicative? = none := by
  obtain ⟨hop, ht⟩ := additive?_eq_some_iff.mp h
  have hfound := operator?_eq_some_iff.mpr ht
  rcases hop with rfl | rfl <;> simp [multiplicative?, hfound]

end Token

namespace Parser

open Grammar

/-! ## What may follow -/

/-- What may follow a factor: a name before an opening bracket would be a call. -/
def FollowsFactor (k : List Token) : Prop := ∃ t rest, k = t :: rest ∧ t.kind ≠ .opening

/-- What may follow a term: a further factor would belong to it. -/
def FollowsTerm (k : List Token) : Prop :=
  ∃ t rest, k = t :: rest ∧ t.kind ≠ .opening ∧ t.multiplicative? = none

/-- What may follow an expression: a further factor or term would belong to it. -/
def FollowsExpression (k : List Token) : Prop :=
  ∃ t rest, k = t :: rest ∧ t.kind ≠ .opening ∧ t.multiplicative? = none ∧ t.additive? = none

variable {k : List Token}

theorem FollowsTerm.followsFactor (h : FollowsTerm k) : FollowsFactor k := by
  obtain ⟨t, rest, hk, ht, -⟩ := h
  exact ⟨t, rest, hk, ht⟩

theorem FollowsExpression.followsTerm (h : FollowsExpression k) : FollowsTerm k := by
  obtain ⟨t, rest, hk, ht, hmul, -⟩ := h
  exact ⟨t, rest, hk, ht, hmul⟩

theorem followsFactor_of_symbol {t : Token} {symbol : String} (h : t.IsSymbol symbol) :
    FollowsFactor (t :: k) :=
  ⟨t, k, rfl, by rw [h.1]; decide⟩

theorem followsTerm_of_additive {t : Token} {op : Operator} (h : t.additive? = some op) :
    FollowsTerm (t :: k) :=
  ⟨t, k, rfl, by rw [(Token.additive?_eq_some_iff.mp h).2.1]; decide,
    Token.multiplicative?_eq_none_of_additive? h⟩

/-- A token that is neither an operator nor an opening bracket ends every expression before it. -/
theorem followsExpression_of_kind {t : Token} (ht : t.kind ≠ .opening) (ht' : t.kind ≠ .operator) :
    FollowsExpression (t :: k) :=
  ⟨t, k, rfl, ht, Token.multiplicative?_eq_none ht', Token.additive?_eq_none ht'⟩

theorem followsExpression_of_closing {t : Token} (h : t.kind = .closing) : FollowsExpression (t :: k) :=
  followsExpression_of_kind (by simp [h]) (by simp [h])

theorem followsExpression_of_comma {t : Token} (h : t.kind = .comma) : FollowsExpression (t :: k) :=
  followsExpression_of_kind (by simp [h]) (by simp [h])

/-! ## The loops stop -/

variable {last : Option Token}

theorem products_stop {fuel : Nat} {e : Expr} (hk : FollowsTerm k) (hfuel : 0 < fuel) :
    products last fuel e k = .ok (e, k) := by
  obtain ⟨t, rest, rfl, -, hmul⟩ := hk
  obtain ⟨fuel, rfl⟩ := Nat.exists_eq_add_of_lt hfuel
  simp [products, hmul]

theorem sums_stop {fuel : Nat} {e : Expr} (hk : FollowsExpression k) (hfuel : 0 < fuel) :
    sums last fuel e k = .ok (e, k) := by
  obtain ⟨t, rest, rfl, -, -, hadd⟩ := hk
  obtain ⟨fuel, rfl⟩ := Nat.exists_eq_add_of_lt hfuel
  simp [sums, hadd]

theorem closing_cons {t : Token} (h : t.kind = .closing) : closing (t :: k) = .ok k := by
  simp [closing, h]

theorem Operand.length_pos {ts : List Token} (h : Operand ts) : 0 < ts.length := by
  obtain ⟨⟨t, us, rfl, -⟩, -⟩ := h
  simp

/-! ## Consuming a derivation -/

mutual

theorem expression_reaches {ts : List Token} {e : Expr} : Expression ts e →
    ∀ (k : List Token) (fuel : Nat), FollowsTerm k → 8 * ts.length ≤ fuel + 1 →
    ∃ left, fuel ≤ left + ts.length + 1 ∧ expression last fuel (ts ++ k) = sums last left e k
  | .term h => by
    intro k fuel hk hfuel
    have hpos := Operand.length_pos h.operand
    obtain ⟨fuel, rfl⟩ : ∃ n, fuel = n + 1 := ⟨fuel - 1, by omega⟩
    obtain ⟨left, hleft, hterm⟩ := term_reaches h k fuel hk.followsFactor (by omega)
    rw [products_stop hk (by omega)] at hterm
    exact ⟨fuel, by omega, by rw [expression, hterm]; rfl⟩
  | @Expression.sum ts us t op _ r hl hop ht hr => by
    intro k fuel hk hfuel
    simp only [List.length_append, List.length_cons] at hfuel ⊢
    have hadd := Token.additive?_eq_some_iff.mpr ⟨hop, ht⟩
    obtain ⟨left, hleft, hreach⟩ :=
      expression_reaches hl (t :: (us ++ k)) fuel (followsTerm_of_additive hadd) (by omega)
    have hpos := Operand.length_pos hr.operand
    obtain ⟨left, rfl⟩ : ∃ n, left = n + 1 := ⟨left - 1, by omega⟩
    obtain ⟨inner, hinner, hterm⟩ := term_reaches hr k left hk.followsFactor (by omega)
    rw [products_stop hk (by omega)] at hterm
    refine ⟨left, by omega, ?_⟩
    rw [List.append_assoc, List.cons_append, hreach, sums, hadd]
    simp only [hterm]
    rfl

theorem term_reaches {ts : List Token} {e : Expr} : Term ts e →
    ∀ (k : List Token) (fuel : Nat), FollowsFactor k → 8 * ts.length ≤ fuel + 2 →
    ∃ left, fuel ≤ left + ts.length + 1 ∧ term last fuel (ts ++ k) = products last left e k
  | .factor h => by
    intro k fuel hk hfuel
    have hpos := Operand.length_pos h.operand
    obtain ⟨fuel, rfl⟩ : ∃ n, fuel = n + 1 := ⟨fuel - 1, by omega⟩
    have hfactor := factor_consumes h k fuel hk (by omega)
    exact ⟨fuel, by omega, by rw [term, hfactor]; rfl⟩
  | @Term.product ts us t op _ r hl hop ht hr => by
    intro k fuel hk hfuel
    simp only [List.length_append, List.length_cons] at hfuel ⊢
    have hmul := Token.multiplicative?_eq_some_iff.mpr ⟨hop, ht⟩
    obtain ⟨left, hleft, hreach⟩ :=
      term_reaches hl (t :: (us ++ k)) fuel (followsFactor_of_symbol ht) (by omega)
    have hpos := Operand.length_pos hr.operand
    obtain ⟨left, rfl⟩ : ∃ n, left = n + 1 := ⟨left - 1, by omega⟩
    have hfactor := factor_consumes hr k left hk (by omega)
    refine ⟨left, by omega, ?_⟩
    rw [List.append_assoc, List.cons_append, hreach, products, hmul]
    simp only [hfactor]
    rfl

theorem factor_consumes {ts : List Token} {e : Expr} : Factor ts e →
    ∀ (k : List Token) (fuel : Nat), FollowsFactor k → 8 * ts.length ≤ fuel + 3 →
    factor last fuel (ts ++ k) = .ok (e, k)
  | .primary h => by
    intro k fuel hk hfuel
    have hpos := Operand.length_pos h.operand
    obtain ⟨fuel, rfl⟩ : ∃ n, fuel = n + 1 := ⟨fuel - 1, by omega⟩
    obtain ⟨t, us, rfl, hsign, hprimary⟩ := primary_consumes h k fuel hk (by omega)
    rw [List.cons_append, factor, hsign]
    exact hprimary
  | .signed ht h => by
    intro k fuel hk hfuel
    rw [List.length_cons] at hfuel
    obtain ⟨fuel, rfl⟩ : ∃ n, fuel = n + 1 := ⟨fuel - 1, by omega⟩
    have hfactor := factor_consumes h k fuel hk (by omega)
    rw [List.cons_append, factor, Token.sign?_eq_some_iff.mpr ht]
    simp only [hfactor]
    rfl

theorem primary_consumes {ts : List Token} {e : Expr} : Primary ts e →
    ∀ (k : List Token) (fuel : Nat), FollowsFactor k → 8 * ts.length ≤ fuel + 4 →
    ∃ t us, ts = t :: us ∧ t.sign? = none ∧ primary last fuel t (us ++ k) = .ok (e, k)
  | .number (t := t) h => by
    intro k fuel _ hfuel
    simp only [List.length_singleton] at hfuel
    obtain ⟨fuel, rfl⟩ : ∃ n, fuel = n + 1 := ⟨fuel - 1, by omega⟩
    exact ⟨t, [], rfl, Token.sign?_eq_none (by simp [h]), by simp [primary, h]⟩
  | .text (t := t) h => by
    intro k fuel _ hfuel
    simp only [List.length_singleton] at hfuel
    obtain ⟨fuel, rfl⟩ : ∃ n, fuel = n + 1 := ⟨fuel - 1, by omega⟩
    exact ⟨t, [], rfl, Token.sign?_eq_none (by simp [h]), by simp [primary, h]⟩
  | .reference (t := t) h => by
    intro k fuel _ hfuel
    simp only [List.length_singleton] at hfuel
    obtain ⟨fuel, rfl⟩ : ∃ n, fuel = n + 1 := ⟨fuel - 1, by omega⟩
    exact ⟨t, [], rfl, Token.sign?_eq_none (by simp [h]), by simp [primary, h]⟩
  | @Primary.truth t b h hword => by
    intro k fuel hk hfuel
    simp only [List.length_singleton] at hfuel
    obtain ⟨fuel, rfl⟩ : ∃ n, fuel = n + 2 := ⟨fuel - 2, by omega⟩
    obtain ⟨next, rest, rfl, hnext⟩ := hk
    refine ⟨t, [], rfl, Token.sign?_eq_none (by simp [h]), ?_⟩
    cases b <;> simp_all [primary, named]
  | @Primary.call name opening close f ts args hname hlower hopen hargs hclose => by
    intro k fuel _ hfuel
    simp only [List.length_cons, List.length_append, List.length_nil] at hfuel
    obtain ⟨fuel, rfl⟩ : ∃ n, fuel = n + 2 := ⟨fuel - 2, by omega⟩
    have harguments := arguments_consumes hargs close k fuel hclose (by omega)
    have hf : Function.ofName? (Text.lower name.written) = some f :=
      Function.ofName?_eq_some_iff.mpr hlower.symm
    refine ⟨name, _, rfl, Token.sign?_eq_none (by simp [hname]), ?_⟩
    have hts : opening :: (ts ++ [close]) ++ k = opening :: (ts ++ close :: k) := by simp
    rw [hts]
    simp only [primary, hname, named, hopen, beq_self_eq_true, if_true, hf, harguments,
      closing_cons hclose, bind, Except.bind]
  | @Primary.bracketed opening close ts e hopen h hclose => by
    intro k fuel _ hfuel
    simp only [List.length_cons, List.length_append, List.length_nil] at hfuel
    obtain ⟨fuel, rfl⟩ : ∃ n, fuel = n + 1 := ⟨fuel - 1, by omega⟩
    have hfollow : FollowsExpression (close :: k) := followsExpression_of_closing hclose
    obtain ⟨left, hleft, hreach⟩ := expression_reaches h _ fuel hfollow.followsTerm (by omega)
    rw [sums_stop hfollow (by omega)] at hreach
    refine ⟨opening, _, rfl, Token.sign?_eq_none (by simp [hopen]), ?_⟩
    have hts : ts ++ [close] ++ k = ts ++ close :: k := by simp
    rw [hts]
    simp only [primary, hopen, hreach, closing_cons hclose, bind, Except.bind]

theorem arguments_consumes {ts : List Token} {args : List Expr} : Arguments ts args →
    ∀ (c : Token) (k : List Token) (fuel : Nat), c.kind = .closing → 8 * ts.length + 1 ≤ fuel →
    arguments last fuel (ts ++ c :: k) = .ok (args, c :: k)
  | .none => by
    intro c k fuel hc hfuel
    obtain ⟨fuel, rfl⟩ : ∃ n, fuel = n + 1 := ⟨fuel - 1, by omega⟩
    simp [arguments, hc]
  | .some h => by
    intro c k fuel hc hfuel
    obtain ⟨fuel, rfl⟩ : ∃ n, fuel = n + 1 := ⟨fuel - 1, by omega⟩
    obtain ⟨first, others, mid, rfl, hfirst, hmore⟩ := listed_consumes h c k fuel hc (by omega)
    obtain ⟨⟨t, us, rfl, ht⟩, -⟩ := h.operand
    rw [List.cons_append] at hfirst ⊢
    simp only [arguments, beq_iff_eq, ht, if_false, hfirst, hmore, bind, Except.bind]

theorem listed_consumes {ts : List Token} {args : List Expr} : Listed ts args →
    ∀ (c : Token) (k : List Token) (fuel : Nat), c.kind = .closing → 8 * ts.length ≤ fuel + 1 →
    ∃ first others mid, args = first :: others ∧ expression last fuel (ts ++ c :: k) = .ok (first, mid) ∧
      moreArguments last fuel mid = .ok (others, c :: k)
  | @Listed.last _ e h => by
    intro c k fuel hc hfuel
    have hpos := Operand.length_pos h.operand
    have hfollow : FollowsExpression (c :: k) := followsExpression_of_closing hc
    obtain ⟨left, hleft, hreach⟩ := expression_reaches h _ fuel hfollow.followsTerm (by omega)
    rw [sums_stop hfollow (by omega)] at hreach
    refine ⟨e, [], c :: k, rfl, hreach, ?_⟩
    obtain ⟨fuel, rfl⟩ : ∃ n, fuel = n + 1 := ⟨fuel - 1, by omega⟩
    simp [moreArguments, hc]
  | @Listed.more ts us t e _ h ht hs => by
    intro c k fuel hc hfuel
    simp only [List.length_append, List.length_cons] at hfuel
    have hpos := Operand.length_pos h.operand
    have hfollow : FollowsExpression (t :: (us ++ c :: k)) := followsExpression_of_comma ht
    obtain ⟨left, hleft, hreach⟩ := expression_reaches h _ fuel hfollow.followsTerm (by omega)
    rw [sums_stop hfollow (by omega)] at hreach
    refine ⟨e, _, t :: (us ++ c :: k), rfl, by simpa using hreach, ?_⟩
    obtain ⟨fuel, rfl⟩ : ∃ n, fuel = n + 1 := ⟨fuel - 1, by omega⟩
    obtain ⟨first, others, mid, rfl, hfirst, hmore⟩ := listed_consumes hs c k fuel hc (by omega)
    simp only [moreArguments, ht, beq_self_eq_true, if_true, hfirst, hmore, bind, Except.bind]

end

end Parser

end AdhocReport
