import AdhocReport.Proofs.Expression.Parsing
import Mathlib.Data.List.DropRight
set_option autoImplicit false

/-!
# Expressions: the references of a parsed text

A reference of a text is a name, blanks, a point and directly a second name.  No blank and no point
is in a name, so the ids that are cut out of it are filled and trimmed.
-/

namespace AdhocReport

/-! ## Trimming what holds no blank -/

namespace Text

theorem dropWhile_solid {cs : List Char} (h : ∀ c ∈ cs, isBlank c = false) : cs.dropWhile isBlank = cs := by
  cases cs with
  | nil => rfl
  | cons c cs => rw [List.dropWhile_cons_of_neg (by simp [h c List.mem_cons_self])]

theorem trimEnd_append_blanks {cs bs : List Char} (hcs : ∀ c ∈ cs, isBlank c = false)
    (hbs : ∀ c ∈ bs, isBlank c = true) : trimEnd (cs ++ bs) = cs := by
  have hblanks : ∀ c ∈ bs.reverse, isBlank c = true := fun c hc => hbs c (List.mem_reverse.mp hc)
  have hsolid : ∀ c ∈ cs.reverse, isBlank c = false := fun c hc => hcs c (List.mem_reverse.mp hc)
  rw [trimEnd, List.reverse_append, List.dropWhile_append_of_pos hblanks, dropWhile_solid hsolid,
    List.reverse_reverse]

theorem trim_solid {cs : List Char} (h : ∀ c ∈ cs, isBlank c = false) :
    trim (String.ofList cs) = String.ofList cs := by
  have htrim := @trimEnd_append_blanks cs [] h (List.forall_mem_nil _)
  rw [List.append_nil] at htrim
  rw [trim, String.toList_ofList, trimChars, dropWhile_solid h, htrim]

/-- What was trimmed begins with no blank, since its first character is that of what was left in front. -/
theorem dropWhile_trimChars (cs : List Char) : (trimChars cs).dropWhile isBlank = trimChars cs := by
  cases htrimmed : trimChars cs with
  | nil => rfl
  | cons c rest =>
    have hprefix : c :: rest <+: cs.dropWhile isBlank := by
      rw [← htrimmed]
      exact List.rdropWhile_prefix isBlank (cs.dropWhile isBlank)
    obtain ⟨others, hothers⟩ := hprefix
    have hfirst := List.head?_dropWhile_not isBlank cs
    rw [← hothers] at hfirst
    exact List.dropWhile_cons_of_neg (by simpa using hfirst)

theorem trim_trim (s : String) : trim (trim s) = trim s := by
  rw [trim, trim, String.toList_ofList]
  congr 1
  rw [trimChars, dropWhile_trimChars]
  exact List.rdropWhile_idempotent isBlank (s.toList.dropWhile isBlank)

end Text

/-! ## Trimmed references -/

/-- Both ids are filled and trimmed. -/
structure FieldRef.Trimmed (ref : FieldRef) : Prop where
  model_ne : ref.model ≠ ""
  field_ne : ref.field ≠ ""
  trim_model : Text.trim ref.model = ref.model
  trim_field : Text.trim ref.field = ref.field

namespace Token

/-- Every character of a name lies between a zero and a small z. -/
theorem toNat_of_continuesName {c : Char} (h : continuesName c = true) : 48 ≤ c.toNat ∧ c.toNat ≤ 122 := by
  have hletter : c.isAlpha = (decide (c.val ≥ 'A'.val ∧ c.val ≤ 'Z'.val) ||
      (decide (c.val ≥ 'a'.val) && decide (c.val ≤ 'z'.val))) := rfl
  change 48 ≤ c.val.toNat ∧ c.val.toNat ≤ 122
  simp only [continuesName, Char.isAlphanum, hletter, Char.isDigit, Bool.or_eq_true, Bool.and_eq_true,
    decide_eq_true_eq, beq_iff_eq, ge_iff_le, UInt32.le_iff_toNat_le] at h
  rcases h with ((h | h) | h) | rfl
  · exact ⟨le_trans (by decide) h.1, le_trans h.2 (by decide)⟩
  · exact ⟨le_trans (by decide) h.1, le_trans h.2 (by decide)⟩
  · exact ⟨le_trans (by decide) h.1, le_trans h.2 (by decide)⟩
  · decide

/-- No blank is among the characters of names. -/
theorem isBlank_of_continuesName {c : Char} (h : continuesName c = true) : Text.isBlank c = false := by
  have hrange := toNat_of_continuesName h
  simp only [Text.isBlank, Text.inRanges, Text.blankRanges, List.any_cons, List.any_nil,
    Bool.or_eq_false_iff, Bool.and_eq_false_iff, decide_eq_false_iff_not, and_true]
  omega

/-- A name: its first character starts one and the others continue it. -/
def IsName (cs : List Char) : Prop := cs ≠ [] ∧ ∀ c ∈ cs, continuesName c = true

theorem isName_of_spanName {cs name rest : List Char} (h : spanName cs = some (name, rest)) : IsName name := by
  cases cs with
  | nil => cases h
  | cons c cs =>
    rw [spanName] at h
    split at h
    · rename_i hc
      cases h
      refine ⟨List.cons_ne_nil _ _, fun d hd => ?_⟩
      rcases List.mem_cons.mp hd with rfl | hd
      · simp only [startsName, Bool.or_eq_true] at hc
        simp only [continuesName, Char.isAlphanum, Bool.or_eq_true]
        exact hc.imp_left .inl
      · exact List.mem_takeWhile_imp hd
    · cases h

/-- A reference is a name, blanks, a point and a name. -/
def IsReference (cs : List Char) : Prop :=
  ∃ model blanks field, cs = model ++ blanks ++ '.' :: field ∧ IsName model ∧
    (∀ c ∈ blanks, Text.isBlank c = true) ∧ IsName field

theorem isReference_of_spanReference {cs lexeme rest : List Char}
    (h : spanReference cs = some (lexeme, rest)) : IsReference lexeme := by
  unfold spanReference at h
  obtain ⟨⟨model, after⟩, hmodel, h⟩ := Option.bind_eq_some_iff.mp h
  dsimp only at h
  split at h
  · obtain ⟨⟨field, last⟩, hfield, h⟩ := Option.bind_eq_some_iff.mp h
    cases h
    exact ⟨model, _, field, rfl, isName_of_spanName hmodel, fun c hc => List.mem_takeWhile_imp hc,
      isName_of_spanName hfield⟩
  · cases h

theorem IsName.solid {cs : List Char} (h : IsName cs) {c : Char} (hc : c ∈ cs) : Text.isBlank c = false :=
  isBlank_of_continuesName (h.2 c hc)

theorem IsName.ofList_ne {cs : List Char} (h : IsName cs) : String.ofList cs ≠ "" := by
  intro hempty
  have hnil := congrArg String.toList hempty
  rw [String.toList_ofList] at hnil
  exact h.1 hnil

/-- No point is in a name, and a point is no blank: the first point of a reference is its own. -/
theorem fieldRef_of_reference {model blanks field : List Char} (position : Nat) (hmodel : IsName model)
    (hblanks : ∀ c ∈ blanks, Text.isBlank c = true) :
    fieldRef ⟨.reference, model ++ blanks ++ '.' :: field, position⟩ =
      ⟨String.ofList model, String.ofList field⟩ := by
  have hpoint : ∀ c ∈ model ++ blanks, (c != '.') = true := by
    intro c hc
    simp only [bne_iff_ne]
    rintro rfl
    rcases List.mem_append.mp hc with hc | hc
    · exact absurd (hmodel.2 _ hc) (by decide)
    · exact absurd (hblanks _ hc) (by decide)
  have htake : (model ++ blanks ++ '.' :: field).takeWhile (· != '.') = model ++ blanks := by
    rw [List.takeWhile_append_of_pos hpoint, List.takeWhile_cons_of_neg (by decide), List.append_nil]
  have hdrop : (model ++ blanks ++ '.' :: field).dropWhile (· != '.') = '.' :: field := by
    rw [List.dropWhile_append_of_pos hpoint, List.dropWhile_cons_of_neg (by decide)]
  rw [fieldRef, htake, hdrop, Text.trimEnd_append_blanks (fun c hc => hmodel.solid hc) hblanks]
  rfl

theorem singleKind?_ne_reference (c : Char) : singleKind? c ≠ some .reference := by
  unfold singleKind?
  split
  · simp
  · split
    · simp
    · split
      · simp
      · split <;> simp

/-- If the token is a reference, then to a trimmed field. -/
def NamesField (t : Token) : Prop := t.kind = .reference → t.fieldRef.Trimmed

theorem namesField_of_cut {cs : List Char} {cut : Cut} {kind : TokenKind} (h : cut? cs = some cut)
    (hkind : cut.kind = some kind) (position : Nat) : NamesField ⟨kind, cut.lexeme, position⟩ := by
  intro hreference
  obtain rfl : kind = .reference := hreference
  obtain ⟨lexeme, rest, hspan, rfl⟩ : ∃ lexeme rest, spanReference cs = some (lexeme, rest) ∧
      cut = ⟨some .reference, lexeme, rest⟩ := by
    unfold cut? at h
    split at h
    · cases h
    · split at h
      · cases h; cases hkind
      · split at h
        · rename_i hspan
          exact ⟨_, _, hspan, (Option.some.inj h).symm⟩
        · split at h
          · cases h; cases hkind
          · split at h
            · cases h; cases hkind
            · split at h
              · cases h; cases hkind
              · obtain ⟨single, hsingle, rfl⟩ := Option.map_eq_some_iff.mp h
                cases hkind
                exact absurd hsingle (singleKind?_ne_reference _)
  obtain ⟨model, blanks, field, rfl, hmodel, hblanks, hfield⟩ := isReference_of_spanReference hspan
  rw [fieldRef_of_reference position hmodel hblanks]
  exact ⟨hmodel.ofList_ne, hfield.ofList_ne, Text.trim_solid fun c hc => hmodel.solid hc,
    Text.trim_solid fun c hc => hfield.solid hc⟩

theorem namesField_of_scanFrom {fuel position : Nat} {cs : List Char} {ts : List Token}
    (h : scanFrom fuel position cs = .ok ts) : ∀ t ∈ ts, NamesField t := by
  have hending : ∀ position, ∀ t ∈ [(⟨.ending, [], position⟩ : Token)], NamesField t := by
    intro position t ht hkind
    cases List.mem_singleton.mp ht
    cases hkind
  induction fuel generalizing position cs ts with
  | zero =>
    cases cs <;> (cases h; exact hending position)
  | succ fuel ih =>
    cases cs with
    | nil =>
      cases h
      exact hending position
    | cons c tail =>
      rw [scanFrom] at h
      split at h
      · cases h
      · rename_i cut hcut
        dsimp only at h
        split at h
        · cases h
        · split at h
          · cases h
          · rename_i tokens htokens
            cases h
            split
            · rename_i kind hkind
              rw [List.forall_mem_cons]
              exact ⟨namesField_of_cut hcut hkind position, ih htokens⟩
            · exact ih htokens

theorem namesField_of_scan {text : String} {ts : List Token} (h : scan text = .ok ts) :
    ∀ t ∈ ts, NamesField t :=
  namesField_of_scanFrom h

end Token

/-! ## The references of a parsed tree -/

/-- Every reference of the tree is trimmed. -/
def Expr.Trimmed (e : Expr) : Prop := ∀ ref ∈ e.columns, ref.Trimmed

namespace Grammar

mutual

theorem Expression.trimmed {ts : List Token} {e : Expr} :
    Expression ts e → (∀ t ∈ ts, t.NamesField) → e.Trimmed
  | .term h, hts => h.trimmed hts
  | .sum hl _ _ hr, hts => by
    rw [List.forall_mem_append, List.forall_mem_cons] at hts
    exact List.forall_mem_append.mpr ⟨hl.trimmed hts.1, hr.trimmed hts.2.2⟩

theorem Term.trimmed {ts : List Token} {e : Expr} :
    Term ts e → (∀ t ∈ ts, t.NamesField) → e.Trimmed
  | .factor h, hts => h.trimmed hts
  | .product hl _ _ hr, hts => by
    rw [List.forall_mem_append, List.forall_mem_cons] at hts
    exact List.forall_mem_append.mpr ⟨hl.trimmed hts.1, hr.trimmed hts.2.2⟩

theorem Factor.trimmed {ts : List Token} {e : Expr} :
    Factor ts e → (∀ t ∈ ts, t.NamesField) → e.Trimmed
  | .primary h, hts => h.trimmed hts
  | .signed _ h, hts => h.trimmed (List.forall_mem_cons.mp hts).2

theorem Primary.trimmed {ts : List Token} {e : Expr} :
    Primary ts e → (∀ t ∈ ts, t.NamesField) → e.Trimmed
  | .number _, _ => List.forall_mem_nil _
  | .text _, _ => List.forall_mem_nil _
  | .reference h, hts => List.forall_mem_singleton.mpr (List.forall_mem_singleton.mp hts h)
  | .truth _ _, _ => List.forall_mem_nil _
  | .call _ _ _ hargs _, hts => by
    rw [List.forall_mem_cons, List.forall_mem_cons, List.forall_mem_append] at hts
    exact hargs.trimmed hts.2.2.1
  | .bracketed _ h _, hts => by
    rw [List.forall_mem_cons, List.forall_mem_append] at hts
    exact h.trimmed hts.2.1

theorem Arguments.trimmed {ts : List Token} {args : List Expr} :
    Arguments ts args → (∀ t ∈ ts, t.NamesField) → ∀ ref ∈ Expr.columnsOfArgs args, ref.Trimmed
  | .none, _ => List.forall_mem_nil _
  | .some h, hts => h.trimmed hts

theorem Listed.trimmed {ts : List Token} {args : List Expr} :
    Listed ts args → (∀ t ∈ ts, t.NamesField) → ∀ ref ∈ Expr.columnsOfArgs args, ref.Trimmed
  | .last h, hts => by
    rw [Expr.columnsOfArgs, List.forall_mem_append]
    exact ⟨h.trimmed hts, List.forall_mem_nil _⟩
  | .more h _ hs, hts => by
    rw [List.forall_mem_append, List.forall_mem_cons] at hts
    rw [Expr.columnsOfArgs, List.forall_mem_append]
    exact ⟨h.trimmed hts.1, hs.trimmed hts.2.2⟩

end

end Grammar

namespace Expr

theorem scan_of_parse {text : String} {e : Expr} (h : parse (some text) = .ok e) :
    ∃ ts, Token.scan text = .ok ts := by
  rw [parse] at h
  split at h
  · cases h
  · obtain ⟨ts, hts, -⟩ := Outcome.bind_eq_ok.mp h
    exact ⟨ts, hts⟩

theorem trimmed_of_parse {text : String} {e : Expr} (h : parse (some text) = .ok e) : e.Trimmed := by
  obtain ⟨ts, hts⟩ := scan_of_parse h
  refine ((parse_eq_ok_iff hts).mp h).trimmed fun t ht => ?_
  exact Token.namesField_of_scan hts t (List.dropLast_subset ts ht)

end Expr

end AdhocReport
