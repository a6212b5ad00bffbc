import AdhocReport.Proofs.Expression.Grammar
import AdhocReport.Proofs.Outcome
set_option autoImplicit false

/-!
# Expressions: the parser invents nothing

Whatever tokens a step of the parser consumes derive the tree that it returns.  The two loops for
operators carry the tokens of their left operand along: these derive a sum or a product, and so do
they with every further operand.
-/

namespace AdhocReport

open Outcome (bind_eq_ok)

namespace Token

theorem operator?_eq_some_iff {t : Token} {op : Operator} :
    t.operator? = some op ↔ t.IsSymbol op.symbol := by
  unfold operator? IsSymbol
  by_cases h : t.kind = .operator
  · simp only [h, beq_self_eq_true, if_true, true_and]
    rw [Operator.ofSymbol?_eq_some_iff, eq_comm]
  · simp [h]

theorem additive?_eq_some_iff {t : Token} {op : Operator} :
    t.additive? = some op ↔ (op = .add ∨ op = .sub) ∧ t.IsSymbol op.symbol := by
  rw [← operator?_eq_some_iff]
  unfold additive?
  cases t.operator? with
  | none => simp
  | some found => cases found <;> cases op <;> simp

theorem multiplicative?_eq_some_iff {t : Token} {op : Operator} :
    t.multiplicative? = some op ↔ (op = .mul ∨ op = .div) ∧ t.IsSymbol op.symbol := by
  rw [← operator?_eq_some_iff]
  unfold multiplicative?
  cases t.operator? with
  | none => simp
  | some found => cases found <;> cases op <;> simp

theorem sign?_eq_some_iff {t : Token} {sign : Sign} :
    t.sign? = some sign ↔ t.IsSymbol sign.symbol := by
  unfold sign? IsSymbol
  by_cases h : t.kind = .operator
  · simp only [h, beq_self_eq_true, if_true, true_and]
    rw [Sign.ofSymbol?_eq_some_iff, eq_comm]
  · simp [h]

end Token

namespace Parser

open Grammar

theorem closing_eq_ok {ts rest : List Token} (h : closing ts = .ok rest) :
    ∃ t, t.kind = .closing ∧ ts = t :: rest := by
  cases ts with
  | nil => simp [closing] at h
  | cons t ts =>
    by_cases hk : t.kind = .closing
    · have hts : ts = rest := by simpa [closing, hk] using h
      exact ⟨t, hk, by rw [hts]⟩
    · simp [closing, hk] at h

/-- Every step of the parser with this much fuel derives the tree it returns from the tokens it
consumes. -/
structure SoundAt (last : Option Token) (fuel : Nat) : Prop where
  expression : ∀ {ts rest : List Token} {e : Expr}, expression last fuel ts = .ok (e, rest) →
    ∃ us, ts = us ++ rest ∧ Expression us e
  sums : ∀ {l : Expr} {ts rest : List Token} {e : Expr}, sums last fuel l ts = .ok (e, rest) →
    ∀ {us : List Token}, Expression us l → ∃ vs, ts = vs ++ rest ∧ Expression (us ++ vs) e
  term : ∀ {ts rest : List Token} {e : Expr}, term last fuel ts = .ok (e, rest) →
    ∃ us, ts = us ++ rest ∧ Term us e
  products : ∀ {l : Expr} {ts rest : List Token} {e : Expr}, products last fuel l ts = .ok (e, rest) →
    ∀ {us : List Token}, Term us l → ∃ vs, ts = vs ++ rest ∧ Term (us ++ vs) e
  factor : ∀ {ts rest : List Token} {e : Expr}, factor last fuel ts = .ok (e, rest) →
    ∃ us, ts = us ++ rest ∧ Factor us e
  primary : ∀ {t : Token} {ts rest : List Token} {e : Expr}, primary last fuel t ts = .ok (e, rest) →
    ∃ us, ts = us ++ rest ∧ Primary (t :: us) e
  named : ∀ {t : Token} {ts rest : List Token} {e : Expr}, t.kind = .name →
    named last fuel t ts = .ok (e, rest) → ∃ us, ts = us ++ rest ∧ Primary (t :: us) e
  arguments : ∀ {ts rest : List Token} {args : List Expr}, arguments last fuel ts = .ok (args, rest) →
    ∃ us, ts = us ++ rest ∧ Arguments us args
  moreArguments : ∀ {ts rest : List Token} {args : List Expr},
    moreArguments last fuel ts = .ok (args, rest) →
    ∃ us, ts = us ++ rest ∧ ∀ {vs : List Token} {e : Expr}, Expression vs e → Listed (vs ++ us) (e :: args)

/-! ## One case for each function -/

variable {last : Option Token} {fuel : Nat}

theorem expression_sound (ih : SoundAt last fuel) {ts rest : List Token} {e : Expr}
    (h : expression last (fuel + 1) ts = .ok (e, rest)) : ∃ us, ts = us ++ rest ∧ Expression us e := by
  rw [expression] at h
  obtain ⟨⟨l, mid⟩, hterm, hsums⟩ := bind_eq_ok.mp h
  obtain ⟨us, rfl, hl⟩ := ih.term hterm
  obtain ⟨vs, rfl, he⟩ := ih.sums hsums (.term hl)
  exact ⟨us ++ vs, by simp, he⟩

theorem sums_sound (ih : SoundAt last fuel) {l : Expr} {ts rest : List Token} {e : Expr}
    (h : sums last (fuel + 1) l ts = .ok (e, rest)) {us : List Token} (hl : Expression us l) :
    ∃ vs, ts = vs ++ rest ∧ Expression (us ++ vs) e := by
  cases ts with
  | nil =>
    rw [sums] at h
    obtain ⟨rfl, rfl⟩ : l = e ∧ [] = rest := by simpa using h
    exact ⟨[], rfl, by simpa using hl⟩
  | cons t ts =>
    rw [sums] at h
    split at h
    · obtain ⟨rfl, rfl⟩ : l = e ∧ t :: ts = rest := by simpa using h
      exact ⟨[], rfl, by simpa using hl⟩
    · rename_i op hop
      obtain ⟨⟨r, mid⟩, hterm, hsums⟩ := bind_eq_ok.mp h
      obtain ⟨vs, rfl, hr⟩ := ih.term hterm
      obtain ⟨hop, ht⟩ := Token.additive?_eq_some_iff.mp hop
      obtain ⟨ws, rfl, he⟩ := ih.sums hsums (.sum hl hop ht hr)
      exact ⟨t :: (vs ++ ws), by simp, by simpa using he⟩

theorem term_sound (ih : SoundAt last fuel) {ts rest : List Token} {e : Expr}
    (h : term last (fuel + 1) ts = .ok (e, rest)) : ∃ us, ts = us ++ rest ∧ Term us e := by
  rw [term] at h
  obtain ⟨⟨l, mid⟩, hfactor, hproducts⟩ := bind_eq_ok.mp h
  obtain ⟨us, rfl, hl⟩ := ih.factor hfactor
  obtain ⟨vs, rfl, he⟩ := ih.products hproducts (.factor hl)
  exact ⟨us ++ vs, by simp, he⟩

theorem products_sound (ih : SoundAt last fuel) {l : Expr} {ts rest : List Token} {e : Expr}
    (h : products last (fuel + 1) l ts = .ok (e, rest)) {us : List Token} (hl : Term us l) :
    ∃ vs, ts = vs ++ rest ∧ Term (us ++ vs) e := by
  cases ts with
  | nil =>
    rw [products] at h
    obtain ⟨rfl, rfl⟩ : l = e ∧ [] = rest := by simpa using h
    exact ⟨[], rfl, by simpa using hl⟩
  | cons t ts =>
    rw [products] at h
    split at h
    · obtain ⟨rfl, rfl⟩ : l = e ∧ t :: ts = rest := by simpa using h
      exact ⟨[], rfl, by simpa using hl⟩
    · rename_i op hop
      obtain ⟨⟨r, mid⟩, hfactor, hproducts⟩ := bind_eq_ok.mp h
      obtain ⟨vs, rfl, hr⟩ := ih.factor hfactor
      obtain ⟨hop, ht⟩ := Token.multiplicative?_eq_some_iff.mp hop
      obtain ⟨ws, rfl, he⟩ := ih.products hproducts (.product hl hop ht hr)
      exact ⟨t :: (vs ++ ws), by simp, by simpa using he⟩

theorem factor_sound (ih : SoundAt last fuel) {ts rest : List Token} {e : Expr}
    (h : factor last (fuel + 1) ts = .ok (e, rest)) : ∃ us, ts = us ++ rest ∧ Factor us e := by
  cases ts with
  | nil => simp [factor] at h
  | cons t ts =>
    rw [factor] at h
    split at h
    · rename_i sign hsign
      obtain ⟨⟨operand, mid⟩, hfactor, hret⟩ := bind_eq_ok.mp h
      obtain ⟨rfl, rfl⟩ : Expr.unary sign operand = e ∧ mid = rest := by simpa using hret
      obtain ⟨us, rfl, hus⟩ := ih.factor hfactor
      exact ⟨t :: us, rfl, .signed (Token.sign?_eq_some_iff.mp hsign) hus⟩
    · obtain ⟨us, rfl, hus⟩ := ih.primary h
      exact ⟨t :: us, rfl, .primary hus⟩

theorem primary_sound (ih : SoundAt last fuel) {t : Token} {ts rest : List Token} {e : Expr}
    (h : primary last (fuel + 1) t ts = .ok (e, rest)) : ∃ us, ts = us ++ rest ∧ Primary (t :: us) e := by
  rw [primary] at h
  split at h
  · rename_i hk
    obtain ⟨rfl, rfl⟩ : Expr.literal t.numberValue = e ∧ ts = rest := by simpa using h
    exact ⟨[], rfl, .number hk⟩
  · rename_i hk
    obtain ⟨rfl, rfl⟩ : Expr.literal (.text t.textValue) = e ∧ ts = rest := by simpa using h
    exact ⟨[], rfl, .text hk⟩
  · rename_i hk
    obtain ⟨rfl, rfl⟩ : Expr.column t.fieldRef = e ∧ ts = rest := by simpa using h
    exact ⟨[], rfl, .reference hk⟩
  · rename_i hk
    exact ih.named hk h
  · rename_i hk
    obtain ⟨⟨inner, mid⟩, hexpr, h⟩ := bind_eq_ok.mp h
    obtain ⟨after, hclose, hret⟩ := bind_eq_ok.mp h
    obtain ⟨rfl, rfl⟩ : inner = e ∧ after = rest := by simpa using hret
    obtain ⟨us, rfl, hus⟩ := ih.expression hexpr
    obtain ⟨c, hc, rfl⟩ := closing_eq_ok hclose
    exact ⟨us ++ [c], by simp, .bracketed hk hus hc⟩
  · simp at h

theorem named_sound (ih : SoundAt last fuel) {t : Token} {ts rest : List Token} {e : Expr}
    (hk : t.kind = .name) (h : named last (fuel + 1) t ts = .ok (e, rest)) :
    ∃ us, ts = us ++ rest ∧ Primary (t :: us) e := by
  cases ts with
  | nil => simp [named] at h
  | cons next ts =>
    rw [named] at h
    by_cases hopen : next.kind = .opening
    · simp only [hopen, beq_self_eq_true, if_true] at h
      split at h
      · cases h
      · rename_i f hf
        obtain ⟨⟨args, mid⟩, hargs, h⟩ := bind_eq_ok.mp h
        obtain ⟨after, hclose, hret⟩ := bind_eq_ok.mp h
        obtain ⟨rfl, rfl⟩ : Expr.call f args = e ∧ after = rest := by simpa using hret
        obtain ⟨us, rfl, hus⟩ := ih.arguments hargs
        obtain ⟨c, hc, rfl⟩ := closing_eq_ok hclose
        have hname : Text.lower t.written = f.name := (Function.ofName?_eq_some_iff.mp hf).symm
        exact ⟨next :: (us ++ [c]), by simp, .call hk hname hopen hus hc⟩
    · simp only [beq_iff_eq, hopen, if_false] at h
      split at h
      · rename_i htrue
        obtain ⟨rfl, rfl⟩ : Expr.literal (.truth true) = e ∧ next :: ts = rest := by simpa using h
        exact ⟨[], rfl, .truth hk htrue⟩
      · split at h
        · rename_i hfalse
          obtain ⟨rfl, rfl⟩ : Expr.literal (.truth false) = e ∧ next :: ts = rest := by simpa using h
          exact ⟨[], rfl, .truth hk hfalse⟩
        · cases h

theorem arguments_sound (ih : SoundAt last fuel) {ts rest : List Token} {args : List Expr}
    (h : arguments last (fuel + 1) ts = .ok (args, rest)) : ∃ us, ts = us ++ rest ∧ Arguments us args := by
  cases ts with
  | nil =>
    rw [arguments] at h
    obtain ⟨rfl, rfl⟩ : [] = args ∧ [] = rest := by simpa using h
    exact ⟨[], rfl, .none⟩
  | cons t ts =>
    rw [arguments] at h
    split at h
    · obtain ⟨rfl, rfl⟩ : [] = args ∧ t :: ts = rest := by simpa using h
      exact ⟨[], rfl, .none⟩
    · obtain ⟨⟨first, mid⟩, hfirst, h⟩ := bind_eq_ok.mp h
      obtain ⟨⟨others, after⟩, hothers, hret⟩ := bind_eq_ok.mp h
      obtain ⟨rfl, rfl⟩ : first :: others = args ∧ after = rest := by simpa using hret
      obtain ⟨us, hus, he⟩ := ih.expression hfirst
      obtain ⟨vs, rfl, hlisted⟩ := ih.moreArguments hothers
      exact ⟨us ++ vs, by simp [hus], .some (hlisted he)⟩

theorem moreArguments_sound (ih : SoundAt last fuel) {ts rest : List Token} {args : List Expr}
    (h : moreArguments last (fuel + 1) ts = .ok (args, rest)) :
    ∃ us, ts = us ++ rest ∧ ∀ {vs : List Token} {e : Expr}, Expression vs e → Listed (vs ++ us) (e :: args) := by
  cases ts with
  | nil =>
    rw [moreArguments] at h
    obtain ⟨rfl, rfl⟩ : [] = args ∧ [] = rest := by simpa using h
    exact ⟨[], rfl, fun he => by simpa using Listed.last he⟩
  | cons t ts =>
    rw [moreArguments] at h
    split at h
    · rename_i hk
      obtain ⟨⟨next, mid⟩, hnext, h⟩ := bind_eq_ok.mp h
      obtain ⟨⟨others, after⟩, hothers, hret⟩ := bind_eq_ok.mp h
      obtain ⟨rfl, rfl⟩ : next :: others = args ∧ after = rest := by simpa using hret
      obtain ⟨us, rfl, hus⟩ := ih.expression hnext
      obtain ⟨vs, rfl, hlisted⟩ := ih.moreArguments hothers
      have hcomma : t.kind = .comma := by simpa using hk
      exact ⟨t :: (us ++ vs), by simp, fun he => .more he hcomma (hlisted hus)⟩
    · obtain ⟨rfl, rfl⟩ : [] = args ∧ t :: ts = rest := by simpa using h
      exact ⟨[], rfl, fun he => by simpa using Listed.last he⟩

theorem sound (last : Option Token) (fuel : Nat) : SoundAt last fuel := by
  induction fuel with
  | zero => constructor <;> intros <;> simp_all [expression, sums, term, products, factor, primary,
      named, arguments, moreArguments]
  | succ fuel ih =>
    exact ⟨expression_sound ih, sums_sound ih, term_sound ih, products_sound ih, factor_sound ih,
      primary_sound ih, named_sound ih, arguments_sound ih, moreArguments_sound ih⟩

end Parser

end AdhocReport
