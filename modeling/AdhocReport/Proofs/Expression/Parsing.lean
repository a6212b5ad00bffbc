import AdhocReport.Proofs.Expression.Completeness
import Mathlib.Data.List.TakeWhile
set_option autoImplicit false

/-!
# Expressions: parsing decides the grammar

A scanned text is a list of tokens with one end marker, which is its last.  The parser accepts the
text with a tree exactly when the tokens before the end marker derive this tree; a token sequence
derives at most one tree.
-/

namespace AdhocReport

open Outcome (bind_eq_ok)

namespace Token

/-! ## The end marker -/

theorem singleKind?_ne_ending (c : Char) : singleKind? c ≠ some .ending := by
  unfold singleKind?
  split
  · simp
  · split
    · simp
    · split
      · simp
      · split <;> simp

theorem cut?_kind_ne_ending {cs : List Char} {cut : Cut} (h : cut? cs = some cut) :
    cut.kind ≠ some .ending := by
  unfold cut? at h
  split at h
  · cases h
  · rename_i c tail
    split at h
    · cases h; simp
    · split at h
      · cases h; simp
      · split at h
        · cases h; simp
        · split at h
          · cases h; simp
          · split at h
            · cases h; simp
            · obtain ⟨kind, hkind, rfl⟩ := Option.map_eq_some_iff.mp h
              rw [← hkind]
              exact singleKind?_ne_ending c

/-- The tokens of a text: its end marker stands last and nowhere else. -/
def Marked (ts : List Token) : Prop :=
  ∃ body eof, ts = body ++ [eof] ∧ eof.kind = .ending ∧ ∀ t ∈ body, t.kind ≠ .ending

theorem Marked.cons {t : Token} {ts : List Token} (h : Marked ts) (ht : t.kind ≠ .ending) :
    Marked (t :: ts) := by
  obtain ⟨body, eof, rfl, heof, hbody⟩ := h
  refine ⟨t :: body, eof, rfl, heof, fun u hu => ?_⟩
  rcases List.mem_cons.mp hu with rfl | hu
  · exact ht
  · exact hbody u hu

theorem marked_ending (position : Nat) : Marked [⟨.ending, [], position⟩] :=
  ⟨[], _, rfl, rfl, by simp⟩

theorem scanFrom_marked {fuel position : Nat} {cs : List Char} {ts : List Token}
    (h : scanFrom fuel position cs = .ok ts) : Marked ts := by
  induction fuel generalizing position cs ts with
  | zero =>
    cases cs <;> (simp only [scanFrom, Except.ok.injEq] at h; subst h; exact marked_ending position)
  | succ fuel ih =>
    cases cs with
    | nil =>
      simp only [scanFrom, Except.ok.injEq] at h
      subst h
      exact marked_ending position
    | cons c tail =>
      rw [scanFrom] at h
      split at h
      · cases h
      · rename_i cut hcut
        dsimp only at h
        split at h
        · cases h
        · split at h
          · cases h
          · rename_i tokens htokens
            have hmarked := ih htokens
            cases h
            split
            · rename_i kind hkind
              have hne := cut?_kind_ne_ending hcut
              rw [hkind] at hne
              exact hmarked.cons fun h => hne (congrArg some h)
            · exact hmarked

theorem scan_marked {text : String} {ts : List Token} (h : scan text = .ok ts) : Marked ts :=
  scanFrom_marked h

/-- A text of blanks has no token before its end marker. -/
theorem scan_blank {text : String} {ts : List Token} (hblank : Text.isBlankText text = true)
    (h : scan text = .ok ts) : ts.dropLast = [] := by
  unfold scan at h
  unfold Text.isBlankText at hblank
  generalize text.toList = cs at h hblank
  cases cs with
  | nil =>
    simp only [scanFrom, Except.ok.injEq] at h
    subst h
    rfl
  | cons c tail =>
    simp only [List.all_cons, Bool.and_eq_true] at hblank
    obtain ⟨hc, htail⟩ := hblank
    have hrest : tail.dropWhile Text.isBlank = [] := by
      rw [List.dropWhile_eq_nil_iff]
      exact List.all_eq_true.mp htail
    have hcut : cut? (c :: tail) = some ⟨none, c :: tail.takeWhile Text.isBlank, []⟩ := by
      simp [cut?, hc, hrest]
    simp only [List.length_cons, scanFrom, hcut, Cut.dangles] at h
    simp at h
    subst h
    rfl

end Token

namespace Parser

open Grammar

/-- The first end marker of a list splits it in one way. -/
theorem eq_body_of_append {us body rest : List Token} {t eof : Token} (ht : t.kind = .ending)
    (hbody : ∀ u ∈ body, u.kind ≠ .ending) (h : body ++ [eof] = us ++ t :: rest) : us = body := by
  rcases List.append_eq_append_iff.mp h with ⟨as, hus, hhas⟩ | ⟨as, hbody', hhas⟩
  · cases as with
    | nil => simpa using hus
    | cons a as => simp at hhas
  · cases as with
    | nil => simpa using hbody'.symm
    | cons a as =>
      obtain ⟨rfl, -⟩ := List.cons.inj hhas
      exact absurd ht (hbody t (by rw [hbody']; simp))

theorem derives_of_ofTokens {body : List Token} {eof : Token} (heof : eof.kind = .ending)
    (hbody : ∀ t ∈ body, t.kind ≠ .ending) {e : Expr} (h : ofTokens (body ++ [eof]) = .ok e) :
    Expression body e := by
  obtain ⟨⟨found, rest⟩, hexpr, h⟩ := bind_eq_ok.mp h
  obtain ⟨us, hus, hfound⟩ := (sound _ _).expression hexpr
  cases rest with
  | nil =>
    -- the end marker would have been consumed as a part of the expression
    rw [List.append_nil] at hus
    exact absurd heof (hfound.operand.2 eof (by rw [← hus]; simp))
  | cons t rest =>
    dsimp only at h
    split at h
    · rename_i ht
      cases h
      rw [← eq_body_of_append ht hbody hus]
      exact hfound
    · cases h
    · cases h

theorem ofTokens_of_derives {body : List Token} (eof : Token) (heof : eof.kind = .ending) {e : Expr}
    (h : Expression body e) : ofTokens (body ++ [eof]) = .ok e := by
  have hfollow : FollowsExpression [eof] := followsExpression_of_kind (by simp [heof]) (by simp [heof])
  have hfuel : 8 * body.length ≤ fuelFor (body ++ [eof]) + 1 := by
    simp only [fuelFor, List.length_append, List.length_singleton]
    omega
  unfold ofTokens
  generalize (body ++ [eof]).dropLast.getLast? = last
  obtain ⟨left, hleft, hreach⟩ := @expression_reaches last _ _ h [eof] _ hfollow.followsTerm hfuel
  have hpos : 0 < left := by
    simp only [fuelFor, List.length_append, List.length_singleton] at hleft
    omega
  rw [sums_stop hfollow hpos] at hreach
  simp only [hreach, bind, Except.bind, heof]

theorem ofTokens_eq_ok_iff {body : List Token} {eof : Token} (heof : eof.kind = .ending)
    (hbody : ∀ t ∈ body, t.kind ≠ .ending) {e : Expr} :
    ofTokens (body ++ [eof]) = .ok e ↔ Expression body e :=
  ⟨derives_of_ofTokens heof hbody, ofTokens_of_derives eof heof⟩

/-- A token sequence derives at most one tree: the parser finds each of them. -/
theorem derives_unique {ts : List Token} {e e' : Expr} (h : Expression ts e) (h' : Expression ts e') :
    e = e' := by
  have hok := ofTokens_of_derives ⟨.ending, [], 0⟩ rfl h
  have hok' := ofTokens_of_derives ⟨.ending, [], 0⟩ rfl h'
  rw [hok] at hok'
  exact Except.ok.inj hok'

end Parser

namespace Expr

open Grammar

theorem parse_eq_ok_iff {text : String} {ts : List Token} (h : Token.scan text = .ok ts) {e : Expr} :
    parse (some text) = .ok e ↔ Expression ts.dropLast e := by
  by_cases hblank : Text.isBlankText text = true
  · have hnil := Token.scan_blank hblank h
    constructor
    · intro hparse
      simp [parse, hblank] at hparse
    · intro hexpr
      rw [hnil] at hexpr
      exact absurd (Parser.Operand.length_pos hexpr.operand) (by simp)
  · obtain ⟨body, eof, rfl, heof, hbody⟩ := Token.scan_marked h
    have hparse : parse (some text) = Parser.ofTokens (body ++ [eof]) := by
      simp only [parse, hblank, h]
      rfl
    rw [hparse, List.dropLast_concat]
    exact Parser.ofTokens_eq_ok_iff heof hbody

/-- The tokens of a scanned text are those before one end marker.  The parser returns a tree exactly
when they derive it, no token sequence derives two trees, and a text whose tokens derive none is
refused with a syntax error. -/
theorem parse_decides_grammar {text : String} {ts : List Token} (h : Token.scan text = .ok ts) :
    (∃ eof, eof.kind = .ending ∧ ts = ts.dropLast ++ [eof]) ∧
      (∀ e, parse (some text) = .ok e ↔ Expression ts.dropLast e) ∧
      (∀ (us : List Token) (e e' : Expr), Expression us e → Expression us e' → e = e') ∧
      ((∀ e, ¬ Expression ts.dropLast e) → ∃ fault : SyntaxError, parse (some text) = .error fault) := by
  refine ⟨?_, fun e => parse_eq_ok_iff h, fun us e e' => Parser.derives_unique, fun hnone => ?_⟩
  · obtain ⟨body, eof, rfl, heof, -⟩ := Token.scan_marked h
    exact ⟨eof, heof, by rw [List.dropLast_concat]⟩
  · cases hparse : parse (some text) with
    | ok e => exact absurd ((parse_eq_ok_iff h).mp hparse) (hnone e)
    | error fault => exact ⟨fault, rfl⟩

/-- The differences in `a.b-c.d-e.f` associate to the left. -/
theorem parse_decides_grammar_differences :
    Token.scan "a.b-c.d-e.f" = .ok [⟨.reference, ['a', '.', 'b'], 0⟩, ⟨.operator, ['-'], 3⟩,
        ⟨.reference, ['c', '.', 'd'], 4⟩, ⟨.operator, ['-'], 7⟩, ⟨.reference, ['e', '.', 'f'], 8⟩,
        ⟨.ending, [], 11⟩] ∧
      parse (some "a.b-c.d-e.f") = .ok (.binary .sub
        (.binary .sub (.column (Token.fieldRef ⟨.reference, ['a', '.', 'b'], 0⟩))
          (.column (Token.fieldRef ⟨.reference, ['c', '.', 'd'], 4⟩)))
        (.column (Token.fieldRef ⟨.reference, ['e', '.', 'f'], 8⟩))) := by
  refine ⟨rfl, ((parse_decides_grammar rfl).2.1 _).mpr ?_⟩
  have hterm (t : Token) (ht : t.kind = .reference) : Term [t] (.column t.fieldRef) :=
    .factor (.primary (.reference ht))
  exact .sum (.sum (.term (hterm _ rfl)) (.inr rfl) ⟨rfl, rfl⟩ (hterm _ rfl)) (.inr rfl) ⟨rfl, rfl⟩
    (hterm _ rfl)

end Expr

end AdhocReport
