import AdhocReport.Calendar.Moment
import AdhocReport.Proofs.Calendar.Date
import AdhocReport.Proofs.Calendar.Moment
set_option autoImplicit false

/-!
# The order of written dates

Numbers that are written with one width are in the order of their texts, and a date is written from its year
down to its day.  So written dates of four-digit years are in the order of the dates, also with hours behind
them.
-/

namespace AdhocReport

/-! ## Texts of one length -/

namespace Text

variable {xs ys us vs : List Char}

/-- Of two texts of one length the lesser one stays so, whatever follows. -/
theorem append_lt_append_of_lt (hlength : xs.length = us.length) (h : xs < us) : xs ++ ys < us ++ vs := by
  induction xs generalizing us with
  | nil =>
    obtain rfl := List.length_eq_zero_iff.mp hlength.symm
    exact absurd h (List.lt_irrefl _)
  | cons x xs ih =>
    cases us with
    | nil => cases hlength
    | cons u us =>
      rw [List.cons_append, List.cons_append, List.cons_lt_cons_iff]
      rcases List.cons_lt_cons_iff.mp h with hfirst | ⟨hfirst, hrest⟩
      · exact .inl hfirst
      · exact .inr ⟨hfirst, ih (Nat.succ.inj hlength) hrest⟩

end Text

/-! ## Numbers of one width -/

namespace Decimal

theorem digit_range {c : Char} (h : c.isDigit = true) : 48 ≤ c.toNat ∧ c.toNat ≤ 57 := by
  simp only [Char.isDigit, Bool.and_eq_true, decide_eq_true_eq, ge_iff_le, UInt32.le_iff_toNat_le] at h
  exact h

theorem ofDigitChars_cons (c : Char) (cs : List Char) :
    Nat.ofDigitChars 10 (c :: cs) 0 = 10 ^ cs.length * (c.toNat - 48) + Nat.ofDigitChars 10 cs 0 := by
  rw [Nat.ofDigitChars_cons, Nat.ofDigitChars_eq_ofDigitChars_zero, Nat.mul_zero, Nat.zero_add]
  rfl

theorem ofDigitChars_lt {cs : List Char} (h : ∀ c ∈ cs, c.isDigit = true) :
    Nat.ofDigitChars 10 cs 0 < 10 ^ cs.length := by
  induction cs with
  | nil => exact Nat.one_pos
  | cons c cs ih =>
    obtain ⟨hc, hcs⟩ := List.forall_mem_cons.mp h
    have hrange := digit_range hc
    have hdigit : 10 ^ cs.length * (c.toNat - 48) ≤ 10 ^ cs.length * 9 := Nat.mul_le_mul_left _ (by omega)
    have hrest := ih hcs
    rw [ofDigitChars_cons, List.length_cons, pow_succ]
    omega

/-- Of two rows of as many digits the one that writes the lesser number is the lesser text. -/
theorem lt_of_ofDigitChars_lt {cs ds : List Char} (hlength : cs.length = ds.length)
    (hcs : ∀ c ∈ cs, c.isDigit = true) (hds : ∀ d ∈ ds, d.isDigit = true)
    (h : Nat.ofDigitChars 10 cs 0 < Nat.ofDigitChars 10 ds 0) : cs < ds := by
  induction cs generalizing ds with
  | nil =>
    obtain rfl := List.length_eq_zero_iff.mp hlength.symm
    exact absurd h (lt_irrefl _)
  | cons c cs ih =>
    cases ds with
    | nil => cases hlength
    | cons d ds =>
      obtain ⟨hc, hcs⟩ := List.forall_mem_cons.mp hcs
      obtain ⟨hd, hds⟩ := List.forall_mem_cons.mp hds
      have hsame : cs.length = ds.length := Nat.succ.inj hlength
      have hcrange := digit_range hc
      have hdrange := digit_range hd
      rw [ofDigitChars_cons, ofDigitChars_cons, hsame] at h
      rw [List.cons_lt_cons_iff]
      rcases Nat.lt_trichotomy c.toNat d.toNat with hlt | heq | hgt
      · exact .inl hlt
      · rw [heq] at h
        exact .inr ⟨Char.toNat_inj.mp heq, ih hsame hcs hds (Nat.lt_of_add_lt_add_left h)⟩
      · -- The digits behind a greater one cannot make up for it.
        have hbound := ofDigitChars_lt hds
        have hmore : 10 ^ ds.length * (d.toNat - 48 + 1) ≤ 10 ^ ds.length * (c.toNat - 48) :=
          Nat.mul_le_mul_left _ (by omega)
        rw [Nat.mul_add, Nat.mul_one] at hmore
        omega

/-- Numbers of one width are in the order of their texts. -/
theorem padded_lt {width m n : ℕ} (hpos : 0 < width) (h : m < n) (hn : n < 10 ^ width) :
    (padded width m).toList < (padded width n).toList := by
  obtain ⟨hmlength, hmdigits, -⟩ := Check.padded_digits hpos (h.trans hn)
  obtain ⟨hnlength, hndigits, -⟩ := Check.padded_digits hpos hn
  refine lt_of_ofDigitChars_lt (hmlength.trans hnlength.symm) hmdigits hndigits ?_
  rw [ofDigitChars_padded, ofDigitChars_padded]
  exact h

end Decimal

/-! ## Dates -/

namespace Calendar.Date

variable {d e : Date}

theorem toList_text (d : Date) : d.text.toList = (Decimal.padded 4 d.year.toNat).toList ++
    ("-".toList ++ ((Decimal.padded 2 d.month).toList ++ ("-".toList ++ (Decimal.padded 2 d.day).toList))) := by
  simp only [text, String.toList_append, List.append_assoc]

theorem Valid.length_text (h : d.Valid) (hyear : d.year ≤ 9999) : d.text.toList.length = 10 := by
  obtain ⟨hyears, -, -⟩ := @Check.padded_digits 4 d.year.toNat (by decide) (by omega)
  obtain ⟨hmonths, -, -⟩ := Check.padded_digits (by decide) h.month_lt
  obtain ⟨hdays, -, -⟩ := Check.padded_digits (by decide) h.day_lt
  simp [toList_text, hyears, hmonths, hdays]

/-- Of two dates of four-digit years the earlier one has the lesser text. -/
theorem Before.text_lt (hd : d.Valid) (he : e.Valid) (hfrom : 0 ≤ d.year) (hto : e.year ≤ 9999) (h : d.Before e) :
    d.text.toList < e.text.toList := by
  rw [toList_text, toList_text]
  rcases h with hyear | ⟨hyear, hmonth | ⟨hmonth, hday⟩⟩
  · obtain ⟨hlength, -, -⟩ := @Check.padded_digits 4 d.year.toNat (by decide) (by omega)
    obtain ⟨hlength', -, -⟩ := @Check.padded_digits 4 e.year.toNat (by decide) (by omega)
    exact Text.append_lt_append_of_lt (hlength.trans hlength'.symm)
      (Decimal.padded_lt (by decide) (by omega) (by omega))
  · obtain ⟨hlength, -, -⟩ := Check.padded_digits (by decide) hd.month_lt
    obtain ⟨hlength', -, -⟩ := Check.padded_digits (by decide) he.month_lt
    rw [hyear]
    exact List.append_left_lt (List.append_left_lt
      (Text.append_lt_append_of_lt (hlength.trans hlength'.symm) (Decimal.padded_lt (by decide) hmonth he.month_lt)))
  · rw [hyear, hmonth]
    exact List.append_left_lt (List.append_left_lt (List.append_left_lt
      (List.append_left_lt (Decimal.padded_lt (by decide) hday he.day_lt))))

end Calendar.Date

end AdhocReport
