import AdhocReport.Check.Moment
import AdhocReport.Proofs.Calendar.Date
import AdhocReport.Proofs.Decimal.Notation
set_option autoImplicit false

/-!
# The text of a moment

A moment is read back from its text: every part is written with as many digits as its reader takes, the
fraction is left out exactly when there is none, and an offset is written to the minute.  So what a clock
shows is read back, and so is a moment whose offset from universal time is in whole minutes.
-/

namespace AdhocReport

/-- What a clock without offset can show. -/
structure Calendar.Moment.Shown (m : Calendar.Moment) : Prop where
  date : m.date.Valid
  from_year : 1 ≤ m.date.year
  to_year : m.date.year ≤ 9999
  hour : m.hour < 24
  minute : m.minute < 60
  second : m.second < 60
  micro : m.micro < 1000000
  offset : m.offset = none

/-- A moment of the calendar, without offset or with one of whole minutes: its text tells all of it. -/
structure Calendar.Moment.Exact (m : Calendar.Moment) : Prop where
  date : m.date.Valid
  from_year : 1 ≤ m.date.year
  to_year : m.date.year ≤ 9999
  hour : m.hour < 24
  minute : m.minute < 60
  second : m.second < 60
  micro : m.micro < 1000000
  offset : ∀ s, m.offset = some s → 60 ∣ s ∧ s.natAbs < 86400

theorem Calendar.Moment.Shown.exact {m : Calendar.Moment} (h : m.Shown) : m.Exact :=
  ⟨h.date, h.from_year, h.to_year, h.hour, h.minute, h.second, h.micro, fun s hgiven => by
    rw [h.offset] at hgiven
    cases hgiven⟩

namespace Check

open Calendar

/-- A number that fits is written with exactly `width` digits, which denote it. -/
theorem padded_digits {width n : ℕ} (hpositive : 0 < width) (hfits : n < 10 ^ width) :
    (Decimal.padded width n).toList.length = width ∧
      (∀ c ∈ (Decimal.padded width n).toList, c.isDigit = true) ∧
      digits? (Decimal.padded width n).toList = some n := by
  have hshort := (Nat.length_toDigits_le_iff (b := 10) (by decide) hpositive).mpr hfits
  have hchars : ∀ c ∈ (Decimal.padded width n).toList, c.isDigit = true := by
    intro c hmember
    rw [Decimal.padded, String.toList_ofList] at hmember
    rcases List.mem_append.mp hmember with h | h
    · rw [List.eq_of_mem_replicate h]
      rfl
    · exact Decimal.isDigit_of_mem_toDigits h
  refine ⟨?_, hchars, ?_⟩
  · rw [Decimal.padded, String.toList_ofList, List.length_append, List.length_replicate]
    omega
  · rw [digits?, if_pos (List.all_eq_true.mpr hchars)]
    exact congrArg some (Decimal.ofDigitChars_padded width n)

/-- A number below a hundred is written with two digits. -/
theorem padded_two {n : ℕ} (hfits : n < 100) :
    ∃ a b, (Decimal.padded 2 n).toList = [a, b] ∧ digits? [a, b] = some n := by
  obtain ⟨hsize, -, hvalue⟩ := @padded_digits 2 n (by decide) hfits
  obtain ⟨a, b, htext⟩ := List.length_eq_two.mp hsize
  rw [htext] at hvalue
  exact ⟨a, b, htext, hvalue⟩

/-- A number below ten thousand is written with four digits. -/
theorem padded_four {n : ℕ} (hfits : n < 10000) : ∃ a b c d, (Decimal.padded 4 n).toList = [a, b, c, d] ∧
    digits? [a, b, c, d] = some n := by
  obtain ⟨hsize, -, hvalue⟩ := @padded_digits 4 n (by decide) hfits
  match htext : (Decimal.padded 4 n).toList with
  | [a, b, c, d] =>
    rw [htext] at hvalue
    exact ⟨a, b, c, d, rfl, hvalue⟩
  | [] => simp [htext] at hsize
  | [_] => simp [htext] at hsize
  | [_, _] => simp [htext] at hsize
  | [_, _, _] => simp [htext] at hsize
  | _ :: _ :: _ :: _ :: _ :: _ => simp [htext] at hsize

/-- A date is read back from the front of a text. -/
theorem datePart_text {d : Date} (hvalid : d.Valid) (hfromYear : 1 ≤ d.year) (htoYear : d.year ≤ 9999)
    (rest : List Char) :
    datePart (d.text.toList ++ rest) = .ok d ∧ (d.text.toList ++ rest).drop 10 = rest := by
  have hdays : d.day < 100 := hvalid.day_lt
  obtain ⟨hmonth, hmonthLe, hday, hdayLe⟩ := hvalid
  obtain ⟨y₁, y₂, y₃, y₄, hyearText, hyear⟩ := @padded_four d.year.toNat (by omega)
  obtain ⟨m₁, m₂, hmonthText, hmonths⟩ := @padded_two d.month (by omega)
  obtain ⟨d₁, d₂, hdayText, hdays⟩ := padded_two hdays
  have htext : d.text.toList = [y₁, y₂, y₃, y₄, '-', m₁, m₂, '-', d₁, d₂] := by
    simp only [Date.text, String.toList_append, hyearText, hmonthText, hdayText]
    rfl
  have hback : ((d.year.toNat : ℕ) : ℤ) = d.year := by omega
  rw [htext]
  refine ⟨?_, rfl⟩
  simp only [datePart, List.cons_append, List.nil_append, List.length_cons, List.take_succ_cons,
    List.take_zero, List.drop_succ_cons, List.drop_zero, hyear, hmonths, hdays, hback]
  rw [if_neg (by omega), if_neg (by simp), if_neg (by simp), if_neg (by simp; omega), if_neg (by simp; omega)]

theorem twoDigits?_cons {a b : Char} {n : ℕ} (hvalue : digits? [a, b] = some n) (rest : List Char) :
    twoDigits? (a :: b :: rest) = some (n, rest) := by
  simp only [twoDigits?, List.length_cons, List.take_succ_cons, List.take_zero, hvalue, List.drop_succ_cons,
    List.drop_zero, Option.map_some]
  rw [if_neg (by omega)]

/-- The characters that may follow the time of day in the text of a moment. -/
def IsOffsetMark (c : Char) : Prop := c = 'Z' ∨ c = '+' ∨ c = '-'

/-- The text of an offset begins with a mark of its own. -/
theorem offsetText_head {m : Moment} {c : Char} (h : m.offsetText.toList.head? = some c) : IsOffsetMark c := by
  unfold Moment.offsetText at h
  split at h
  · cases h
  · split at h
    · exact .inl (Option.some.inj h).symm
    · rw [String.toList_append, String.toList_append, String.toList_append] at h
      split at h
      · exact .inr (.inr (Option.some.inj h).symm)
      · exact .inr (.inl (Option.some.inj h).symm)

/-- A fraction is read back from its text, also when it is left out, and what follows it is left. -/
theorem fraction?_text {m : Moment} (hmicro : m.micro < 1000000) {rest : List Char}
    (hmarked : ∀ c, rest.head? = some c → IsOffsetMark c) :
    fraction? (m.fractionText.toList ++ rest) = some (m.micro, rest) := by
  have hfree (c : Char) (hfirst : rest.head? = some c) : (c == '.' || c == ',') = false ∧ c.isDigit = false := by
    rcases hmarked c hfirst with rfl | rfl | rfl <;> decide
  unfold Moment.fractionText
  split
  · rename_i hnone
    rw [beq_iff_eq] at hnone
    rw [hnone]
    cases rest with
    | nil => rfl
    | cons c rest =>
      show fraction? (c :: rest) = _
      rw [fraction?, if_neg]
      rw [(hfree c rfl).1]
      exact Bool.false_ne_true
  · obtain ⟨hsize, hchars, hvalue⟩ := @padded_digits 6 m.micro (by decide) hmicro
    have htext : ("." ++ Decimal.padded 6 m.micro).toList = '.' :: (Decimal.padded 6 m.micro).toList := by
      rw [String.toList_append]
      rfl
    have hstops : rest.takeWhile Char.isDigit = [] := by
      cases rest with
      | nil => rfl
      | cons c rest => rw [List.takeWhile_cons, (hfree c rfl).2, if_neg Bool.false_ne_true]
    have hall : ((Decimal.padded 6 m.micro).toList ++ rest).takeWhile Char.isDigit =
        (Decimal.padded 6 m.micro).toList := by
      rw [List.takeWhile_append_of_pos hchars, hstops, List.append_nil]
    have hsome : (Decimal.padded 6 m.micro).toList.isEmpty = false := by
      cases hempty : (Decimal.padded 6 m.micro).toList with
      | nil => simp [hempty] at hsize
      | cons c cs => rfl
    have hsix : ((Decimal.padded 6 m.micro).toList ++ List.replicate 6 '0').take 6 =
        (Decimal.padded 6 m.micro).toList := by
      rw [List.take_append_of_le_length (by omega), List.take_of_length_le (by omega)]
    rw [htext]
    simp only [List.cons_append, fraction?, beq_self_eq_true, Bool.true_or, if_true, hall, hsome, hsix, hvalue,
      Option.map_some, List.drop_left, Bool.false_eq_true, if_false]

/-- A sign with hours and minutes is read as an offset. -/
theorem offset?_signed {sign : Char} (hsigned : sign = '-' ∨ sign = '+') {h₁ h₂ n₁ n₂ : Char} {hours minutes : ℕ}
    (hhourValue : digits? [h₁, h₂] = some hours) (hminuteValue : digits? [n₁, n₂] = some minutes)
    (hday : hours < 24) (hhour : minutes < 60) :
    offset? [sign, h₁, h₂, ':', n₁, n₂] = some (some (if sign = '-' then -((hours * 3600 + minutes * 60 : ℕ) : ℤ)
      else (hours * 3600 + minutes * 60 : ℕ))) := by
  have hinRange : ¬(59 < minutes ∨ 24 ≤ hours) := by omega
  unfold offset?
  rcases hsigned with rfl | rfl <;>
    simp [twoDigits?_cons hhourValue, twoDigits?_cons hminuteValue, hinRange]

/-- An offset of whole minutes is read back from its text. -/
theorem offset?_text {m : Moment} (hoffset : ∀ s, m.offset = some s → 60 ∣ s ∧ s.natAbs < 86400) :
    offset? m.offsetText.toList = some m.offset := by
  unfold Moment.offsetText
  cases hgiven : m.offset with
  | none => rfl
  | some s =>
    obtain ⟨hwhole, hbelow⟩ := hoffset s hgiven
    obtain ⟨h₁, h₂, hhourText, hhours⟩ := @padded_two (s.natAbs / 3600) (by omega)
    obtain ⟨n₁, n₂, hminuteText, hminutes⟩ := @padded_two (s.natAbs / 60 % 60) (by omega)
    have hsize : s.natAbs / 3600 * 3600 + s.natAbs / 60 % 60 * 60 = s.natAbs := by omega
    dsimp only
    split
    · rename_i hzero
      rw [beq_iff_eq] at hzero
      rw [hzero]
      rfl
    · have hread {sign : Char} (hsigned : sign = '-' ∨ sign = '+') :=
        offset?_signed hsigned hhours hminutes (by omega) (by omega)
      rw [hsize] at hread
      simp only [String.toList_append, hhourText, hminuteText]
      split
      · rename_i hnegative
        refine (hread (.inl rfl)).trans ?_
        rw [if_pos rfl, Int.ofNat_natAbs_of_nonpos (by omega), Int.neg_neg]
      · rename_i hpositive
        refine (hread (.inr rfl)).trans ?_
        rw [if_neg (by decide), Int.natAbs_of_nonneg (by omega)]

/-- A moment of the calendar is read back from its text. -/
theorem moment_text_of_exact {m : Moment} (hexact : m.Exact) : moment (.str m.text) = .valid m := by
  obtain ⟨hdate, hfromYear, htoYear, hhour, hminute, hsecond, hmicro, hoffset⟩ := hexact
  obtain ⟨h₁, h₂, hhourText, hhours⟩ := @padded_two m.hour (by omega)
  obtain ⟨n₁, n₂, hminuteText, hminutes⟩ := @padded_two m.minute (by omega)
  obtain ⟨s₁, s₂, hsecondText, hseconds⟩ := @padded_two m.second (by omega)
  have htext : m.text.toList = m.date.text.toList ++
      'T' :: h₁ :: h₂ :: ':' :: n₁ :: n₂ :: ':' :: s₁ :: s₂ :: (m.fractionText.toList ++ m.offsetText.toList) := by
    simp only [Moment.text, Moment.clockText, String.toList_append, hhourText, hminuteText, hsecondText]
    simp
  obtain ⟨hdated, hafter⟩ := datePart_text hdate hfromYear htoYear
    ('T' :: h₁ :: h₂ :: ':' :: n₁ :: n₂ :: ':' :: s₁ :: s₂ :: (m.fractionText.toList ++ m.offsetText.toList))
  have hread : dateTime? m.text.toList = some m := by
    rw [htext, dateTime?, hdated]
    simp only [Except.toOption, Option.bind_eq_bind, Option.bind_some, hafter]
    simp only [twoDigits?_cons hhours, twoDigits?_cons hminutes, twoDigits?_cons hseconds,
      fraction?_text hmicro fun c => offsetText_head, offset?_text hoffset, Option.bind_some]
    rw [if_neg (by decide), if_neg (by simp; omega)]
  rw [moment, hread]
  simp only [inYears]
  rw [if_neg (by omega), if_neg (by omega), if_neg (by omega)]

/-- What a clock shows is read back from its text. -/
theorem moment_text {m : Moment} (hshown : m.Shown) : moment (.str m.text) = .valid m :=
  moment_text_of_exact hshown.exact

end Check

end AdhocReport
