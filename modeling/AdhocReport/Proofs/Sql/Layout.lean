import AdhocReport.Sql.Statement
import AdhocReport.Proofs.Decimal.Notation
import AdhocReport.Proofs.Expression.Cut
import AdhocReport.Proofs.Filter.Clause
import AdhocReport.Proofs.Sql.Lexeme
import AdhocReport.Proofs.Sql.Template
set_option autoImplicit false

/-!
# SQL: quotes in statements

Whatever names, labels and values a statement has, each of its parts leaves the quotes that it opens, and
outside quotes it has plain characters only.  So the parts can stand side by side.
-/

namespace AdhocReport.Sql

open AdhocReport.Text AdhocReport.Query

/-- Wherever the text stands outside quotes, it is written from there on and ends outside quotes. -/
def Contained (s : String) : Prop := ∀ before, Written (.outside before) s.toList

/-- A character that may stand anywhere outside quotes. -/
def IsSimple (c : Char) : Prop := ¬ IsMark c ∧ c ∉ kept ∧ c ≠ '*' ∧ c ≠ '$'

instance (c : Char) : Decidable (IsSimple c) := inferInstanceAs (Decidable (_ ∧ _))

/-! ## Putting texts together -/

theorem written_append {p : Place} {cs ds : List Char} (h : Written p cs)
    (h' : ∀ before, Written (.outside before) ds) : Written p (cs ++ ds) := by
  obtain ⟨before, hcs⟩ := h
  obtain ⟨after, hds⟩ := h' before
  refine ⟨after, ?_⟩
  rw [List.foldlM_append, hcs]
  exact hds

theorem Contained.append {s t : String} (hs : Contained s) (ht : Contained t) : Contained (s ++ t) := by
  intro before
  rw [String.toList_append]
  exact written_append (hs before) ht

theorem written_simple {cs : List Char} (h : ∀ c ∈ cs, IsSimple c) (before : Option Char) :
    Written (.outside before) cs := by
  induction cs generalizing before with
  | nil => exact ⟨before, rfl⟩
  | cons c cs ih =>
    obtain ⟨hmark, hkept, hstar, hdollar⟩ := h c List.mem_cons_self
    refine written_outside_cons.mpr (.inr ⟨hmark, ⟨hkept, fun h => absurd h hstar, fun h => absurd h hdollar⟩, ?_⟩)
    exact ih (fun d hd => h d (List.mem_cons_of_mem c hd)) (some c)

theorem contained_of_simple {s : String} (h : ∀ c ∈ s.toList, IsSimple c) : Contained s := written_simple h

/-- As `contained_of_simple`, for a text that is at hand: the characters are checked one by one. -/
theorem contained_of_all {s : String} (h : s.toList.all (fun c => decide (IsSimple c)) = true) : Contained s :=
  contained_of_simple fun c hc => of_decide_eq_true (List.all_eq_true.mp h c hc)

theorem contained_empty : Contained "" := contained_of_all (by decide)

theorem contained_joined {sep : String} (hsep : Contained sep) {texts : List String}
    (h : ∀ s ∈ texts, Contained s) : Contained (Json.joined sep texts) := by
  induction texts with
  | nil => exact contained_empty
  | cons s rest ih =>
    cases rest with
    | nil => exact h s List.mem_cons_self
    | cons t rest =>
      exact ((h s List.mem_cons_self).append hsep).append (ih fun u hu => h u (List.mem_cons_of_mem s hu))

/-! ## Quoted texts and names -/

theorem written_quoted {q : Char} (hq : IsMark q) (cs : List Char) (before : Option Char) :
    Written (.outside before) (quotedWith q cs) := by
  have hdoubled : Written (.inside q) (doubled q cs ++ [q]) := by
    induction cs with
    | nil => exact written_inside_cons.mpr (.inl ⟨rfl, _, rfl⟩)
    | cons c cs ih =>
      rw [doubled]
      split
      · exact written_inside_cons.mpr (.inl ⟨rfl, written_outside_cons.mpr (.inl ⟨hq, ih⟩)⟩)
      · rename_i hc
        exact written_inside_cons.mpr (.inr ⟨hc, ih⟩)
  exact written_outside_cons.mpr (.inl ⟨hq, hdoubled⟩)

theorem contained_quotedName (name : String) : Contained (quotedName name) := by
  intro before
  rw [quotedName, String.toList_ofList]
  exact written_quoted (.inr rfl) _ before

theorem contained_quotedText (text : String) : Contained (quotedText text) := by
  intro before
  rw [quotedText, String.toList_ofList]
  exact written_quoted (.inl rfl) _ before

/-- Where percent signs may be written, they may be written twice. -/
theorem Written.doubled_percent {p : Place} {cs : List Char} (hp : p ≠ .inside '%') (h : Written p cs) :
    Written p (doubled '%' cs) := by
  have hpercent (before : Option Char) : IsPlain before '%' :=
    ⟨by decide, fun h => absurd h (by decide), fun h => absurd h (by decide)⟩
  have houtside (before : Option Char) : Place.outside before ≠ .inside '%' := by simp
  induction cs generalizing p with
  | nil => exact h
  | cons c cs ih =>
    cases p with
    | outside before =>
      rcases written_outside_cons.mp h with ⟨hmark, hrest⟩ | ⟨hmark, hplain, hrest⟩
      · have hc : c ≠ '%' := by rintro rfl; revert hmark; decide
        rw [doubled, if_neg hc]
        exact written_outside_cons.mpr (.inl ⟨hmark, ih (by simpa using hc) hrest⟩)
      · have hrest' : Written (.outside (some c)) (doubled '%' cs) := ih (houtside _) hrest
        rw [doubled]
        split
        · rename_i hc
          subst hc
          refine written_outside_cons.mpr (.inr ⟨hmark, hpercent _, ?_⟩)
          exact written_outside_cons.mpr (.inr ⟨hmark, hpercent _, hrest'⟩)
        · exact written_outside_cons.mpr (.inr ⟨hmark, hplain, hrest'⟩)
    | inside q =>
      have hq : q ≠ '%' := by simpa using hp
      rcases written_inside_cons.mp h with ⟨rfl, hrest⟩ | ⟨hc, hrest⟩
      · rw [doubled, if_neg hq]
        exact written_inside_cons.mpr (.inl ⟨rfl, ih (houtside _) hrest⟩)
      · have hrest' := ih hp hrest
        rw [doubled]
        split
        · exact written_inside_cons.mpr (.inr ⟨hq.symm, written_inside_cons.mpr (.inr ⟨hq.symm, hrest'⟩)⟩)
        · exact written_inside_cons.mpr (.inr ⟨hc, hrest'⟩)

theorem Contained.driverText {s : String} (h : Contained s) (d : Dialect) : Contained (driverText d s) := by
  cases d with
  | sqlite => exact h
  | postgresql =>
    intro before
    rw [Sql.driverText, String.toList_ofList]
    exact (h before).doubled_percent nofun

theorem isWord_of_isBareChar {c : Char} (h : isBareChar c = true) : isWord c = true ∨ c = '$' := by
  simp only [isBareChar, Bool.or_eq_true, beq_iff_eq] at h
  rcases h with (((h | rfl) | rfl) | rfl) | rfl
  · have hname : Token.continuesName c = true := by rw [Token.continuesName, h, Bool.true_or]
    have hascii : c.toNat < 0x80 := by
      have hrange := Token.toNat_of_continuesName hname
      omega
    exact .inl (by simp [isWord, hascii, h])
  · exact .inl (by decide)
  · exact .inr rfl
  · exact .inl (by decide)
  · exact .inl (by decide)

/-- A word character opens no quotes, and it may stand anywhere outside them. -/
theorem isSimple_of_isWord {c : Char} (h : isWord c = true) : IsSimple c := by
  refine ⟨not_isMark_of_isWord h, fun hkept => ?_, ne_of_isWord h (by decide), ne_of_isWord h (by decide)⟩
  have hnone : kept.any isWord = false := by decide +kernel
  exact List.any_eq_false.mp hnone c hkept h

/-- The characters of a bare name behind its first one. -/
theorem written_bare {cs : List Char} (hcs : ∀ c ∈ cs, isBareChar c = true) {b : Char}
    (hb : isWord b = true ∨ b = '$') : Written (.outside (some b)) cs := by
  induction cs generalizing b with
  | nil => exact ⟨_, rfl⟩
  | cons c cs ih =>
    have hc := isWord_of_isBareChar (hcs c List.mem_cons_self)
    have hrest := ih (fun d hd => hcs d (List.mem_cons_of_mem c hd)) hc
    refine written_outside_cons.mpr (.inr ?_)
    rcases hc with hword | rfl
    · obtain ⟨hmark, hkept, hstar, hdollar⟩ := isSimple_of_isWord hword
      exact ⟨hmark, ⟨hkept, fun h => absurd h hstar, fun h => absurd h hdollar⟩, hrest⟩
    · exact ⟨by decide, ⟨by decide, nofun, fun _ => ⟨b, rfl, hb⟩⟩, hrest⟩

/-- A bare name has characters of bare names, behind which one line feed may stand. -/
theorem isBareText_split {cs : List Char} (h : isBareText cs = true) :
    ∃ body, body ≠ [] ∧ (∀ c ∈ body, isBareChar c = true) ∧ (cs = body ∨ cs = body ++ ['\n']) := by
  have hreverse : ∃ body, (body ≠ [] ∧ ∀ c ∈ body, isBareChar c = true) ∧
      (cs.reverse = body ∨ cs.reverse = '\n' :: body) := by
    unfold isBareText at h
    dsimp only at h
    rw [Bool.and_eq_true, Bool.not_eq_true', List.isEmpty_eq_false_iff, List.all_eq_true] at h
    split at h
    · rename_i body hcs
      exact ⟨body, h, .inr hcs⟩
    · exact ⟨cs.reverse, h, .inl rfl⟩
  obtain ⟨body, ⟨hne, hall⟩, hcs⟩ := hreverse
  refine ⟨body.reverse, mt List.reverse_eq_nil_iff.mp hne, fun c hc => hall c (List.mem_reverse.mp hc), ?_⟩
  rw [List.reverse_eq_iff, List.reverse_eq_iff, List.reverse_cons] at hcs
  exact hcs

/-- A bare name begins with a word character. -/
theorem isBareName_split {d : Dialect} {name : String} (h : isBareName d name = true) :
    ∃ c body feed, name.toList = c :: body ++ feed ∧ isWord c = true ∧ (∀ b ∈ body, isBareChar b = true) ∧
      (feed = [] ∨ feed = ['\n']) := by
  simp only [isBareName, Bool.and_eq_true, Bool.not_eq_true'] at h
  obtain ⟨⟨⟨-, htext⟩, hfirst⟩, -⟩ := h
  obtain ⟨body, hne, hall, hname⟩ := isBareText_split htext
  obtain ⟨c, body, rfl⟩ := List.exists_cons_of_ne_nil hne
  have hword : isWord c = true := by
    rcases isWord_of_isBareChar (hall c List.mem_cons_self) with hword | rfl
    · exact hword
    · rcases hname with hname | hname <;> simp [hname] at hfirst
  have hbody : ∀ b ∈ body, isBareChar b = true := fun b hb => hall b (List.mem_cons_of_mem c hb)
  rcases hname with hname | hname
  · exact ⟨c, body, [], by rw [hname, List.append_nil], hword, hbody, .inl rfl⟩
  · exact ⟨c, body, ['\n'], hname, hword, hbody, .inr rfl⟩

theorem contained_bare {d : Dialect} {name : String} (h : isBareName d name = true) : Contained name := by
  obtain ⟨c, body, feed, hname, hword, hbody, hfeed⟩ := isBareName_split h
  obtain ⟨hmark, hkept, hstar, hdollar⟩ := isSimple_of_isWord hword
  have hfeed' : ∀ b ∈ feed, IsSimple b := by
    rcases hfeed with rfl | rfl
    · exact nofun
    · exact List.forall_mem_singleton.mpr (by decide)
  intro before
  rw [hname]
  refine written_append (written_outside_cons.mpr (.inr ⟨hmark, ⟨hkept, ?_, ?_⟩, written_bare hbody (.inl hword)⟩))
    (written_simple hfeed')
  · exact fun h => absurd h hstar
  · exact fun h => absurd h hdollar

theorem contained_nameText (d : Dialect) (name : String) : Contained (nameText d name) := by
  unfold nameText
  split
  · rename_i hbare
    exact contained_bare hbare
  · exact (contained_quotedName name).driverText d

/-! ## Literals -/

theorem isWord_of_plainDigit {c : Char} (h : c.isDigit = true) : isWord c = true := by
  have hbare : isBareChar c = true := by simp [isBareChar, Char.isAlphanum, h]
  rcases isWord_of_isBareChar hbare with hword | rfl
  · exact hword
  · cases h

theorem isSimple_of_isNumeral {c : Char} (h : Decimal.IsNumeral c) : IsSimple c := by
  rcases h with h | rfl | rfl | rfl | rfl
  · exact isSimple_of_isWord (isWord_of_plainDigit h)
  all_goals decide

theorem contained_intText (n : Int) : Contained (Decimal.intText n) := by
  refine contained_of_simple fun c hc => isSimple_of_isNumeral ?_
  rw [Decimal.intText_toList, List.mem_append] at hc
  rcases hc with hc | hc
  · split at hc
    · exact .inr (.inr (.inr (.inl (List.mem_singleton.mp hc))))
    · cases hc
  · exact .inl (Decimal.isDigit_of_mem_toDigits hc)

theorem contained_floatText (x : Float) : Contained (Decimal.floatText x) := by
  cases hnan : x.isNaN with
  | true =>
    rw [Decimal.floatText, if_pos hnan]
    exact contained_of_all (by decide)
  | false =>
    cases hinf : x.isInf with
    | true =>
      rw [Decimal.floatText, if_neg (by rw [hnan]; decide), if_pos hinf]
      split <;> exact contained_of_all (by decide)
    | false =>
      obtain ⟨c, rest, htext, -, hchars, -⟩ := Decimal.floatText_toList hnan hinf
      refine contained_of_simple fun d hd => isSimple_of_isNumeral ?_
      rw [htext, List.mem_append] at hd
      rcases hd with hd | hd
      · split at hd
        · exact .inr (.inr (.inr (.inl (List.mem_singleton.mp hd))))
        · cases hd
      · exact hchars d hd

theorem contained_literalText (d : Dialect) (v : Literal) : Contained (literalText d v) := by
  cases v with
  | int n => exact contained_intText n
  | float x => exact contained_floatText x
  | text s => exact (contained_quotedText s).driverText d
  | truth b => cases d <;> cases b <;> exact contained_of_all (by decide)

/-! ## Expressions -/

/-- The texts of a fragment are contained. -/
def Fragment.Contained (f : Fragment) : Prop := ∀ s, Piece.text s ∈ f → Sql.Contained s

namespace Fragment

variable {f g : Fragment}

theorem contained_nil : Fragment.Contained [] := nofun

theorem Contained.text (hf : f.Contained) {s : String} (hs : Sql.Contained s) : Fragment.Contained (.text s :: f) := by
  intro t ht
  rcases List.mem_cons.mp ht with heq | ht
  · cases heq
    exact hs
  · exact hf t ht

theorem Contained.value (hf : f.Contained) (v : BoundValue) : Fragment.Contained (.value v :: f) := by
  intro t ht
  rcases List.mem_cons.mp ht with heq | ht
  · cases heq
  · exact hf t ht

theorem Contained.append (hf : f.Contained) (hg : g.Contained) : Fragment.Contained (f ++ g) :=
  fun t ht => (List.mem_append.mp ht).elim (hf t) (hg t)

theorem contained_text {s : String} (hs : Sql.Contained s) : Fragment.Contained [.text s] := contained_nil.text hs

theorem Contained.parens (hf : f.Contained) (wanted : Bool) : (f.parens wanted).Contained := by
  unfold Fragment.parens
  split
  · have hclose : Sql.Contained ")" := contained_of_all (by decide)
    exact (hf.append (contained_text hclose)).text (contained_of_all (by decide))
  · exact hf

theorem contained_join {sep : String} (hsep : Sql.Contained sep) {fs : List Fragment} (h : ∀ f ∈ fs, f.Contained) :
    (Fragment.join sep fs).Contained := by
  induction fs with
  | nil => exact contained_nil
  | cons f rest ih =>
    cases rest with
    | nil => exact h f List.mem_cons_self
    | cons g rest =>
      exact (h f List.mem_cons_self).append ((ih fun k hk => h k (List.mem_cons_of_mem f hk)).text hsep)

/-- The values of a fragment are written as literals, so that only its texts matter. -/
theorem Contained.inline (h : f.Contained) (d : Dialect) : Sql.Contained (f.inline d) := by
  induction f with
  | nil => exact contained_empty
  | cons p rest ih =>
    have hrest := ih fun s hs => h s (List.mem_cons_of_mem p hs)
    cases p with
    | text s => exact (h s List.mem_cons_self).append hrest
    | value v => exact (contained_literalText d v.value).append hrest

end Fragment

open Fragment

theorem ColumnUse.contained_text (d : Dialect) (c : ColumnUse) : Contained (c.text d) :=
  ((contained_nameText d c.model).append (contained_of_all (by decide))).append (contained_nameText d c.column.name)

theorem contained_close : Fragment.Contained [.text ")"] := Fragment.contained_text (contained_of_all (by decide))

theorem contained_comma : Contained ", " := contained_of_all (by decide)

/-- An asterisk between blanks begins no comment. -/
theorem contained_product : Contained " * " := fun _ => ⟨_, rfl⟩

theorem DateTerm.contained_fragment {c : Fragment} (hc : c.Contained) (e : DateTerm) : (e.fragment c).Contained := by
  induction e with
  | formatted format =>
    exact ((((Fragment.contained_text contained_comma).value _).text (contained_of_all (by decide))).append hc).append
      contained_close
  | stepped steps =>
    have hsteps : Fragment.Contained (steps.flatMap fun s => [.text ", ", argument "date" s.text]) := by
      intro t ht
      obtain ⟨s, -, hs⟩ := List.mem_flatMap.mp ht
      exact (contained_nil.value _).text contained_comma t hs
    refine (((Fragment.contained_text ?_).append hc).append hsteps).append contained_close
    exact contained_of_all (by decide)
  | integer e ih =>
    refine (ih.append (Fragment.contained_text ?_)).text ?_ <;> exact contained_of_all (by decide)
  | operation op l n ih =>
    have hoperator : Contained (" " ++ op.symbol ++ " ") := by
      cases op with
      | mul => exact contained_product
      | _ => exact contained_of_all (by decide)
    exact (ih.parens _).append ((contained_nil.value _).text hoperator)
  | printed format a b iha ihb =>
    refine (((((Fragment.contained_text contained_comma).value _).text ?_).append iha).append
      (ihb.text contained_comma)).append contained_close
    exact contained_of_all (by decide)

theorem contained_periodFragment (d : Dialect) (b : TimeBucket) {c : Fragment} (hc : c.Contained) :
    (periodFragment d b c).Contained := by
  cases d with
  | sqlite => exact (periodTerm b).contained_fragment hc
  | postgresql =>
    exact ((((Fragment.contained_text contained_comma).value _).text (contained_of_all (by decide))).append hc).append
      contained_close

theorem contained_aggregateFragment (a : Aggregation) {f : Fragment} (hf : f.Contained) :
    (aggregateFragment a f).Contained := by
  cases a <;> exact (hf.append contained_close).text (contained_of_all (by decide))

theorem contained_quotientFragment (d : Dialect) {l r : Fragment} (hl : l.Contained) (hr : r.Contained) :
    (quotientFragment d l r).Contained := by
  have hdivisor : Fragment.Contained
      (.text "nullif(" :: r ++ [.text ", ", .value ⟨"nullif", .int 0, true⟩, .text ")"]) :=
    (hr.append ((contained_close.value _).text contained_comma)).text (contained_of_all (by decide))
  cases d <;> refine (hl.append (hdivisor.text ?_)).append (Fragment.contained_text ?_) <;>
    exact contained_of_all (by decide)

namespace Scalar

mutual

theorem contained_fragment (d : Dialect) : (e : Scalar) → (fragment d e).Contained
  | .column c => contained_text (c.contained_text d)
  | .literal v => contained_nil.value _
  | .negated e => ((contained_fragment d e).parens _).text (contained_of_all (by decide))
  | .binary op l r => by
    have hoperator : Sql.Contained (" " ++ op.symbol ++ " ") := by
      cases op with
      | mul => exact contained_product
      | _ => exact contained_of_all (by decide)
    exact ((contained_fragment d l).parens _).append (((contained_fragment d r).parens _).text hoperator)
  | .quotient l r => contained_quotientFragment d ((contained_fragment d l).parens _) (contained_fragment d r)
  | .call f args => by
    have hname : Sql.Contained (functionName d f ++ "(") := by
      cases d <;> cases f <;> exact contained_of_all (by decide)
    exact ((Fragment.contained_join contained_comma (contained_fragments d args)).append contained_close).text hname
  | .aggregate a e => contained_aggregateFragment a (contained_fragment d e)
  | .period b c => contained_periodFragment d b (contained_text (c.contained_text d))
termination_by structural e => e

theorem contained_fragments (d : Dialect) : (args : List Scalar) → ∀ f ∈ fragments d args, f.Contained
  | [] => nofun
  | e :: rest => List.forall_mem_cons.mpr ⟨contained_fragment d e, contained_fragments d rest⟩
termination_by structural args => args

end

end Scalar

/-! ## Predicates -/

theorem contained_clauseColumn (c : Filter.ClauseColumn) : Contained c.text :=
  ((contained_quotedName c.tableAlias).append (contained_of_all (by decide))).append (contained_quotedName c.name)

theorem contained_searchClause (c : Filter.ClauseColumn) (s : Filter.Search) (value : String) (postgres : Bool) :
    Contained (Filter.searchClause c s value postgres) := by
  have htarget : Contained (if c.type == .string then c.text else "CAST(" ++ c.text ++ " AS TEXT)") := by
    split
    · exact contained_clauseColumn c
    · refine (Contained.append ?_ (contained_clauseColumn c)).append ?_ <;> exact contained_of_all (by decide)
  unfold Filter.searchClause
  dsimp only
  split
  · refine (((htarget.append ?_).append (contained_quotedText _)).append ?_).append (contained_quotedText _) <;>
      exact contained_of_all (by decide)
  · refine (((((Contained.append ?_ htarget).append ?_).append (contained_quotedText _)).append ?_)).append
      (contained_quotedText _) <;> exact contained_of_all (by decide)

theorem isSimple_of_spellingChar {c : Char} (h : Decimal.SpellingChar c) : IsSimple c := by
  rcases h with h | rfl | rfl | rfl | h
  · exact isSimple_of_isWord (isWord_of_isDigit h)
  · decide
  · decide
  · decide
  · simp only [Decimal.isExponentMark, Bool.or_eq_true, beq_iff_eq] at h
    rcases h with rfl | rfl <;> decide

theorem contained_number {value : String} (h : Filter.isNumber (Text.trim value) = true) :
    Contained (Text.trim value) := by
  obtain ⟨negative, sign, cs, n, hsign, hspelled, htext⟩ := Filter.numberText_spelled h
  refine contained_of_simple fun c hc => isSimple_of_spellingChar ?_
  rw [htext] at hc
  exact (List.mem_append.mp hc).elim (hsign.spellingChar c) (hspelled.spellingChar c)

/-- A value that a filter compares with is quoted, unless it is a truth value or was read as a number. -/
theorem contained_value {operator : Filter.Operator} {kind : Filter.ValueKind} {given : Option String}
    {value : Filter.ClauseValue} (h : Filter.valueOf operator kind given = .ok value) : Contained value.written := by
  cases given with
  | none => cases h
  | some v =>
    unfold Filter.valueOf at h
    cases kind with
    | number =>
      dsimp only at h
      split at h
      · rename_i hnumber
        cases h
        exact contained_number hnumber
      · cases h
    | boolean =>
      dsimp only at h
      split at h
      · cases h
        exact contained_of_all (by decide)
      · split at h
        · cases h
          exact contained_of_all (by decide)
        · cases h
    | date =>
      dsimp only at h
      split at h
      · cases h
      · cases h
        exact contained_quotedText _
    | string =>
      dsimp only at h
      split at h
      · cases h
      · cases h
        exact contained_quotedText _

theorem valueOf_of_predicateOf {f : Filter.Spec} {aliases : List (String × String)} {registry : Schema.Registry}
    {left : Filter.ClauseColumn} {c : Filter.Comparator} {value : Filter.ClauseValue}
    (h : Filter.predicateOf f aliases registry = .ok (.compareValue left c value)) :
    Filter.valueOf f.operator f.valueKind f.value = .ok value := by
  obtain ⟨_, -, h⟩ := Outcome.bind_eq_ok.mp h
  split at h
  · cases h
  · split at h
    · cases h
    · split at h
      · cases h
      · cases h
      · split at h <;> cases h
    · split at h
      · split at h
        · cases h
        · obtain ⟨_, -, h⟩ := Outcome.bind_eq_ok.mp h
          cases h
      · obtain ⟨_, hvalue, h⟩ := Outcome.bind_eq_ok.mp h
        cases h
        exact hvalue

/-- The clause of a valid filter, whatever its value is. -/
theorem contained_clause {f : Filter.Spec} {aliases : List (String × String)} {registry : Schema.Registry}
    {p : Filter.Predicate} (h : Filter.predicateOf f aliases registry = .ok p) (postgres : Bool) :
    Contained (p.clause postgres) := by
  have hspace : Contained " " := contained_of_all (by decide)
  have hcompared (c : Filter.ClauseColumn) (op : Filter.Comparator) :
      Contained (c.text ++ " " ++ op.symbol ++ " ") := by
    have hsymbol : Contained op.symbol := by cases op <;> exact contained_of_all (by decide)
    exact (((contained_clauseColumn c).append hspace).append hsymbol).append hspace
  cases p with
  | test c t =>
    have hphrase : Contained t.phrase := by cases t <;> exact contained_of_all (by decide)
    exact ((contained_clauseColumn c).append hspace).append hphrase
  | search c s value => exact contained_searchClause c s value postgres
  | compareFields left c right => exact (hcompared left c).append (contained_clauseColumn right)
  | compareValue left c value =>
    exact (hcompared left c).append (contained_value (valueOf_of_predicateOf h))

theorem contained_predicateText (d : Dialect) {p : Filter.Predicate}
    (h : Contained (p.clause (d == .postgresql))) : Contained (predicateText d p) := by
  rw [predicateText_eq]
  exact h.driverText d

/-! ## Statements -/

theorem Equality.contained_text (d : Dialect) (e : Equality) : Contained (e.text d) :=
  ((e.left.contained_text d).append (contained_of_all (by decide))).append (e.right.contained_text d)

theorem Source.contained_text (d : Dialect) (s : Source) : Contained (s.text d) := by
  induction s with
  | table model t =>
    exact ((contained_nameText d t.name).append (contained_of_all (by decide))).append (contained_nameText d model)
  | join kind l r on ihl ihr =>
    have hwords : Contained kind.words := by cases kind <;> exact contained_of_all (by decide)
    have hright : Contained (if r.isJoin then "(" ++ r.text d ++ ")" else r.text d) := by
      split
      · refine (Contained.append ?_ ihr).append ?_ <;> exact contained_of_all (by decide)
      · exact ihr
    exact (((ihl.append hwords).append hright).append (contained_of_all (by decide))).append (on.contained_text d)

theorem contained_section {heading sep : String} (hheading : Contained heading) (hsep : Contained sep)
    {texts : List String} (h : ∀ s ∈ texts, Contained s) : Contained (section? heading sep texts) := by
  unfold section?
  split
  · exact contained_empty
  · exact hheading.append (contained_joined hsep h)

theorem contained_labelled (d : Dialect) {text : String} (h : Contained text) (label : String) :
    Contained (labelled d text label) :=
  (h.append (contained_of_all (by decide))).append (contained_nameText d label)

theorem contained_orderText (d : Dialect) (o : OrderBy) : Contained (orderText d o) := by
  unfold orderText
  refine (contained_nameText d o.outputAlias).append ?_
  cases o.direction <;> exact contained_of_all (by decide)

namespace Statement

variable (s : Statement) (d : Dialect)

/-- An output with its values in place. -/
def outputText (o : Output) : String := labelled d ((o.value.fragment d).inline d) o.label

/-- What a statement has behind its outputs. -/
def tailText : String :=
  " \nFROM " ++ s.source.text d
    ++ section? " \nWHERE " " AND " (s.conditions.map fun c => (c.fragment d).inline d)
    ++ section? " GROUP BY " ", " (s.keys.map fun o => (o.value.fragment d).inline d)
    ++ section? " ORDER BY " ", " (s.orderBy.map (orderText d))
    ++ (match d with
      | .sqlite => "\n LIMIT " ++ Decimal.intText s.limit ++ " OFFSET " ++ "0"
      | .postgresql => " \n LIMIT " ++ Decimal.intText s.limit)

theorem inlineText_eq :
    s.inlineText d = "SELECT " ++ (Json.joined ", " (s.outputs.map (outputText d)) ++ s.tailText d) := by
  have houtputs : List.zipWith (labelled d) (s.outputs.map fun o => (o.value.fragment d).inline d)
      (s.outputs.map (·.label)) = s.outputs.map (outputText d) := by
    rw [List.zipWith_map, List.zipWith_self]
    rfl
  rw [← houtputs, outputs, List.map_append, inlineText, assemble.eq_def, tailText.eq_def]
  cases d <;> simp only [String.append_assoc, outputs]

theorem contained_outputText (o : Output) : Contained (outputText d o) :=
  contained_labelled d ((Scalar.contained_fragment d o.value).inline d) o.label

theorem contained_tailText (h : ∀ c ∈ s.conditions, Contained ((c.fragment d).inline d)) :
    Contained (s.tailText d) := by
  have hconditions : Contained (section? " \nWHERE " " AND " (s.conditions.map fun c => (c.fragment d).inline d)) :=
    contained_section (contained_of_all (by decide)) (contained_of_all (by decide)) (List.forall_mem_map.mpr h)
  have hkeys : Contained (section? " GROUP BY " ", " (s.keys.map fun o => (o.value.fragment d).inline d)) :=
    contained_section (contained_of_all (by decide)) contained_comma
      (List.forall_mem_map.mpr fun o _ => (Scalar.contained_fragment d o.value).inline d)
  have horder : Contained (section? " ORDER BY " ", " (s.orderBy.map (orderText d))) :=
    contained_section (contained_of_all (by decide)) contained_comma
      (List.forall_mem_map.mpr fun o _ => contained_orderText d o)
  have hfrom : Contained (" \nFROM " ++ s.source.text d) :=
    Contained.append (contained_of_all (by decide)) (s.source.contained_text d)
  refine (((hfrom.append hconditions).append hkeys).append horder).append ?_
  have hlimit := contained_intText s.limit
  cases d with
  | sqlite =>
    refine ((Contained.append ?_ hlimit).append ?_).append ?_ <;> exact contained_of_all (by decide)
  | postgresql => exact Contained.append (contained_of_all (by decide)) hlimit

/-- A statement is contained if its conditions are. -/
theorem contained_inlineText (h : ∀ c ∈ s.conditions, Contained ((c.fragment d).inline d)) :
    Contained (s.inlineText d) := by
  rw [inlineText_eq]
  refine Contained.append (contained_of_all (by decide)) (Contained.append ?_ (s.contained_tailText d h))
  exact contained_joined contained_comma (List.forall_mem_map.mpr fun o _ => contained_outputText d o)

end Statement

/-! ## The first character of an output -/

/-- The text begins with a character that is neither blank nor a point. -/
def Opens (s : String) : Prop := s.toList.head?.any (fun c => !isBlank c && c != '.') = true

instance (s : String) : Decidable (Opens s) := inferInstanceAs (Decidable (_ = true))

theorem Opens.append {s : String} (h : Opens s) (t : String) : Opens (s ++ t) := by
  unfold Opens at *
  rw [String.toList_append]
  cases hs : s.toList with
  | nil =>
    rw [hs] at h
    cases h
  | cons c cs => rwa [hs] at h

theorem opens_of_head {s : String} {c : Char} {cs : List Char} (hs : s.toList = c :: cs)
    (hc : (!isBlank c && c != '.') = true) : Opens s := by
  rwa [Opens, hs]

theorem opens_of_isWord {s : String} {c : Char} {cs : List Char} (hs : s.toList = c :: cs) (hc : isWord c = true) :
    Opens s := by
  refine opens_of_head hs ?_
  have hpoint : c ≠ '.' := ne_of_isWord hc (by decide)
  have hblank : isBlank c = false := by
    rw [← Bool.not_eq_true]
    exact fun h => absurd (isWord_of_isBlank h) (by rw [hc]; decide)
  simp [hblank, hpoint]

/-- A quoted text begins with its mark, also where percent signs are written twice. -/
theorem opens_quoted {q : Char} (hq : IsMark q) (cs : List Char) (d : Dialect) :
    Opens (driverText d (String.ofList (quotedWith q cs))) := by
  have hhead : (!isBlank q && q != '.') = true := by rcases hq with rfl | rfl <;> decide
  have hpercent : q ≠ '%' := by rcases hq with rfl | rfl <;> decide
  cases d with
  | sqlite => exact opens_of_head String.toList_ofList hhead
  | postgresql =>
    rw [driverText, String.toList_ofList, quotedWith, List.cons_append, doubled, if_neg hpercent]
    exact opens_of_head String.toList_ofList hhead

theorem opens_nameText (d : Dialect) (name : String) : Opens (nameText d name) := by
  unfold nameText
  split
  · rename_i hbare
    obtain ⟨c, body, feed, hname, hword, -⟩ := isBareName_split hbare
    exact opens_of_isWord hname hword
  · exact opens_quoted (.inr rfl) _ d

/-- A sign may stand before a digit. -/
theorem opens_signed {s : String} {p : Prop} [Decidable p] {c : Char} {cs : List Char}
    (hs : s.toList = (if p then ['-'] else []) ++ c :: cs) (hc : c.isDigit = true) : Opens s := by
  split at hs
  · exact opens_of_head hs (by decide)
  · exact opens_of_isWord hs (isWord_of_plainDigit hc)

theorem opens_literalText (d : Dialect) (v : Literal) : Opens (literalText d v) := by
  cases v with
  | int n =>
    obtain ⟨c, cs, hdigits, hc⟩ := Decimal.toDigits_cons n.natAbs
    have htext := Decimal.intText_toList n
    rw [hdigits] at htext
    exact opens_signed htext hc
  | float x =>
    cases hnan : x.isNaN with
    | true =>
      rw [literalText, Decimal.floatText, if_pos hnan]
      decide
    | false =>
      cases hinf : x.isInf with
      | true =>
        rw [literalText, Decimal.floatText, if_neg (by rw [hnan]; decide), if_pos hinf]
        split <;> decide
      | false =>
        obtain ⟨c, rest, htext, hc, -⟩ := Decimal.floatText_toList hnan hinf
        exact opens_signed htext hc
  | text s => exact opens_quoted (.inl rfl) _ d
  | truth b => cases d <;> cases b <;> decide

namespace Fragment

/-- A fragment begins with a value, or with a text that opens. -/
def Opens (f : Fragment) : Prop := ∃ p rest, f = p :: rest ∧ ∀ s, p = .text s → Sql.Opens s

variable {f : Fragment}

theorem opens_text {s : String} (hs : Sql.Opens s) (rest : Fragment) : Fragment.Opens (.text s :: rest) :=
  ⟨_, rest, rfl, fun _ h => Piece.text.inj h ▸ hs⟩

theorem opens_value (v : BoundValue) (rest : Fragment) : Fragment.Opens (.value v :: rest) := ⟨_, rest, rfl, nofun⟩

theorem Opens.append (h : f.Opens) (g : Fragment) : Fragment.Opens (f ++ g) := by
  obtain ⟨p, rest, rfl, hp⟩ := h
  exact ⟨p, rest ++ g, rfl, hp⟩

theorem Opens.parens (h : f.Opens) (wanted : Bool) : (f.parens wanted).Opens := by
  unfold Fragment.parens
  split
  · exact opens_text (by decide) _
  · exact h

theorem Opens.inline (h : f.Opens) (d : Dialect) : Sql.Opens (f.inline d) := by
  obtain ⟨p, rest, rfl, hp⟩ := h
  cases p with
  | text s => exact (hp s rfl).append _
  | value v => exact (opens_literalText d v.value).append _

end Fragment

theorem DateTerm.opens_fragment (c : Fragment) (b : TimeBucket) : ((periodTerm b).fragment c).Opens := by
  cases b <;> exact Fragment.opens_text (by decide) _

theorem Scalar.opens_fragment (d : Dialect) : (e : Scalar) → (fragment d e).Opens
  | .column c => Fragment.opens_text (((opens_nameText d c.model).append _).append _) _
  | .literal v => Fragment.opens_value _ _
  | .negated e => Fragment.opens_text (by decide) _
  | .binary op l r => ((opens_fragment d l).parens _).append _
  | .quotient l r => by
    have hl := (opens_fragment d l).parens (l.needsParens 8 none)
    cases d <;> exact (hl.append _).append _
  | .call f args => by
    have hname : Sql.Opens (functionName d f ++ "(") := by cases d <;> cases f <;> decide
    exact Fragment.opens_text hname _
  | .aggregate a e => by cases a <;> exact Fragment.opens_text (by decide) _
  | .period b c => by
    cases d with
    | sqlite => exact DateTerm.opens_fragment _ b
    | postgresql => exact Fragment.opens_text (by decide) _
termination_by structural e => e

theorem Statement.opens_outputText (d : Dialect) (o : Output) : Opens (outputText d o) :=
  ((((Scalar.opens_fragment d o.value).inline d).append _).append _)

end AdhocReport.Sql
