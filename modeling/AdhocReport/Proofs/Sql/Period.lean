import AdhocReport.Proofs.Calendar.Period
import Mathlib.Data.String.Basic
import Mathlib.Tactic.IntervalCases
set_option autoImplicit false

/-!
# Periods of stored dates

The functions over dates that name a period: a stored moment is read back to the hour, a format writes it, the
steps to the next Sunday and back lead to the Monday, and the month of a quarter is computed from the month.  So
the period of a stored moment is named by the text of its first instant.
-/

namespace AdhocReport.Sql

open AdhocReport.Calendar AdhocReport.Query

/-! ## Stored moments -/

/-- The texts that a moment is stored as: a date alone, a date with a time of day to the second, and one with
the fraction. -/
inductive Stores : Moment → String → Prop
  | date (d : Date) : Stores (.ofDate d) d.text
  | clock (m : Moment) (hwhole : m.micro = 0) : Stores m (m.date.text ++ " " ++ m.clockText)
  | moment (m : Moment) : Stores m (storedMoment m)

theorem fixedDigits?_padded {width n : ℕ} (hpos : 0 < width) (hfits : n < 10 ^ width) (rest : List Char) :
    fixedDigits? width ((Decimal.padded width n).toList ++ rest) = some (n, rest) := by
  obtain ⟨hlength, hdigits, hvalue⟩ := Check.padded_digits hpos hfits
  have hall := List.all_eq_true.mpr hdigits
  rw [Check.digits?, if_pos hall] at hvalue
  simp only [fixedDigits?, List.take_left' hlength, List.drop_left' hlength, hlength, hall, beq_self_eq_true,
    Bool.and_self, if_true, Option.some.inj hvalue]

/-- A time of day is read back to the hour, with or without a fraction. -/
theorem clockHour?_clockText {m : Moment} (h : m.Shown) {rest : List Char} (hends : endsClock rest = true) :
    clockHour? (m.clockText.toList ++ rest) = some m.hour := by
  have htext : m.clockText.toList ++ rest = (Decimal.padded 2 m.hour).toList ++
      ':' :: ((Decimal.padded 2 m.minute).toList ++ ':' :: ((Decimal.padded 2 m.second).toList ++ rest)) := by
    simp [Moment.clockText]
  have hhour := h.hour
  have hminute := h.minute
  have hsecond := h.second
  have hhours := @fixedDigits?_padded 2 m.hour (by decide) (by omega)
  have hminutes := @fixedDigits?_padded 2 m.minute (by decide) (by omega)
  have hseconds := @fixedDigits?_padded 2 m.second (by decide) (by omega)
  rw [htext, clockHour?]
  simp only [Option.bind_eq_bind, hhours, hminutes, hseconds, separator?, beq_self_eq_true, if_true,
    Option.bind_some, List.isEmpty_cons, Bool.false_eq_true, if_false, hends]
  simp [hhour, hminute, hsecond]

/-- The date in front of a stored text is read back. -/
theorem storedHour?_date {d : Date} (h : d.Valid) (hfrom : 0 ≤ d.year) (hto : d.year ≤ 9999) {s : String}
    {rest : List Char} (hs : s.toList = d.text.toList ++ rest) :
    storedHour? s = (if (rest.dropWhile fun c => isNumberBlank c || c == 'T').isEmpty then some (d, 0)
      else (clockHour? (rest.dropWhile fun c => isNumberBlank c || c == 'T')).map fun hour => (d, hour)) := by
  have htext : s.toList = (Decimal.padded 4 d.year.toNat).toList ++
      '-' :: ((Decimal.padded 2 d.month).toList ++ '-' :: ((Decimal.padded 2 d.day).toList ++ rest)) := by
    rw [hs, Date.toList_text]
    simp
  have hyear : d.year.toNat < 10 ^ 4 := by omega
  have hback : ((d.year.toNat : ℕ) : ℤ) = d.year := Int.toNat_of_nonneg hfrom
  rw [storedHour?, htext]
  simp only [Option.bind_eq_bind, fixedDigits?_padded (show 0 < 4 by decide) hyear,
    fixedDigits?_padded (show 0 < 2 by decide) h.month_lt, fixedDigits?_padded (show 0 < 2 by decide) h.day_lt,
    separator?, beq_self_eq_true, if_true, Option.bind_some, hback, h, decide_true, Bool.not_true,
    Bool.false_eq_true, if_false]

/-- Blanks are left out up to the first digit. -/
theorem dropWhile_blank {c : Char} (h : c.isDigit = true) (rest : List Char) :
    ((' ' :: c :: rest).dropWhile fun c => isNumberBlank c || c == 'T') = c :: rest := by
  have hrange := Decimal.digit_range h
  have hblank := Decimal.ne_of_isDigit h (show ' '.isDigit = false by rfl)
  have hmark := Decimal.ne_of_isDigit h (show 'T'.isDigit = false by rfl)
  have hkeep : (isNumberBlank c || c == 'T') = false := by
    rw [bne, Bool.not_eq_true'] at hblank hmark
    simp only [isNumberBlank, hblank, hmark, Bool.false_or, Bool.or_false, Bool.and_eq_false_iff,
      decide_eq_false_iff_not]
    omega
  rw [List.dropWhile_cons_of_pos rfl, List.dropWhile_cons_of_neg (by rw [hkeep]; decide)]

/-- A date with a time of day behind a blank is read back to the hour. -/
theorem storedHour?_clock {t : Moment} (ht : t.Shown) {s : String} {rest : List Char}
    (htext : s.toList = t.date.text.toList ++ ' ' :: (t.clockText.toList ++ rest)) (hends : endsClock rest = true) :
    storedHour? s = some (t.date, t.hour) := by
  have hfrom : 0 ≤ t.date.year := zero_le_one.trans ht.from_year
  obtain ⟨hlength, hdigits, -⟩ := @Check.padded_digits 2 t.hour (by decide) (ht.hour.trans (by decide))
  obtain ⟨c, cs, hhour⟩ := List.exists_cons_of_length_eq_add_one hlength
  have hdigit : c.isDigit = true := hdigits c (by rw [hhour]; exact List.mem_cons_self)
  obtain ⟨after, hfirst⟩ : ∃ after, t.clockText.toList ++ rest = c :: after := by
    simp only [Moment.clockText, String.toList_append, hhour, List.cons_append]
    exact ⟨_, rfl⟩
  rw [storedHour?_date ht.date hfrom ht.to_year htext, hfirst, dropWhile_blank hdigit, ← hfirst,
    clockHour?_clockText ht hends, hfirst]
  rfl

/-- A stored moment is read back to the hour. -/
theorem Stores.hour? {t : Moment} {s : String} (hs : Stores t s) (ht : t.Shown) :
    storedHour? s = some (t.date, t.hour) := by
  cases hs with
  | date d =>
    have htext : d.text.toList = d.text.toList ++ [] := (List.append_nil _).symm
    exact storedHour?_date ht.date (zero_le_one.trans ht.from_year) ht.to_year htext
  | clock whole => exact @storedHour?_clock t ht _ [] (by simp) rfl
  | moment =>
    obtain ⟨hlength, hdigits, -⟩ := Check.padded_digits (by decide) (ht.micro.trans_eq (by decide : 1000000 = 10 ^ 6))
    obtain ⟨c, cs, hmicro⟩ := List.exists_cons_of_length_eq_add_one hlength
    have hall := List.all_eq_true.mpr hdigits
    refine @storedHour?_clock t ht _ ('.' :: (Decimal.padded 6 t.micro).toList) (by simp [storedMoment]) ?_
    rw [endsClock, hall, hmicro]
    rfl

/-! ## Formats and steps -/

section

variable {v : Value} {d : Date} {hour : ℕ}

theorem DateTerm.value_formatted (hv : v.hour? = some (d, hour)) {format s : String}
    (hformat : formatDate? d hour format.toList = some s.toList) : (DateTerm.formatted format).value v = .text s := by
  simp only [DateTerm.value, hv, hformat, String.ofList_toList]

theorem periodOf_hour (hv : v.hour? = some (d, hour)) :
    periodOf .hour v = .text (d.text ++ " " ++ Decimal.padded 2 hour ++ ":00:00") := by
  have hformat : formatDate? d hour "%Y-%m-%d %H:00:00".toList =
      some (d.text ++ " " ++ Decimal.padded 2 hour ++ ":00:00").toList := by
    simp [formatDate?, datePart?, Date.text]
  exact DateTerm.value_formatted hv hformat

theorem periodOf_day (hv : v.hour? = some (d, hour)) : periodOf .day v = .text d.text := by
  have hformat : formatDate? d hour "%Y-%m-%d".toList = some d.text.toList := by
    simp [formatDate?, datePart?, Date.text]
  exact DateTerm.value_formatted hv hformat

theorem padded_one : (Decimal.padded 2 1).toList = ['0', '1'] := by decide

theorem periodOf_month (hv : v.hour? = some (d, hour)) :
    periodOf .month v = .text (Date.text ⟨d.year, d.month, 1⟩) := by
  have hformat : formatDate? d hour "%Y-%m-01".toList = some (Date.text ⟨d.year, d.month, 1⟩).toList := by
    simp [formatDate?, datePart?, Date.text, padded_one]
  exact DateTerm.value_formatted hv hformat

theorem periodOf_year (hv : v.hour? = some (d, hour)) : periodOf .year v = .text (Date.text ⟨d.year, 1, 1⟩) := by
  have hformat : formatDate? d hour "%Y-01-01".toList = some (Date.text ⟨d.year, 1, 1⟩).toList := by
    simp [formatDate?, datePart?, Date.text, padded_one]
  exact DateTerm.value_formatted hv hformat

/-- From the next Sunday six days back it is the Monday of the week, also from a Sunday. -/
theorem steps_eq_monday (h : d.Valid) : [DateStep.weekday 0, .daysBack 6].foldl DateStep.apply d = d.monday := by
  obtain ⟨hvalid, hordinal⟩ := h.daysLater ((0 + 7 - d.weekday) % 7)
  obtain ⟨hvalid', hordinal'⟩ := hvalid.daysEarlier 6
  simp only [List.foldl_cons, List.foldl_nil, DateStep.apply]
  generalize daysEarlier 6 (daysLater ((0 + 7 - d.weekday) % 7) d) = e at hvalid' hordinal' ⊢
  rw [hordinal] at hordinal'
  have hback : d.ordinal - 6 ≤ e.ordinal ∧ e.ordinal ≤ d.ordinal ∧ (e.ordinal + 4) % 7 = 1 := by
    simp only [Date.weekday] at hordinal'
    omega
  refine Date.InWeekOf.eq ⟨hvalid', ?_, hback.2.1, by omega⟩ h.inWeekOf_monday
  rw [Date.weekday, hback.2.2]
  rfl

theorem periodOf_week (h : d.Valid) (hfrom : 1 ≤ d.year) (hto : d.year ≤ 9999) (hv : v.hour? = some (d, hour)) :
    periodOf .week v = .text d.monday.text := by
  obtain ⟨hmonday, hmonday'⟩ := h.monday_year hfrom
  show DateTerm.value v (.stepped [.weekday 0, .daysBack 6]) = _
  simp only [DateTerm.value, hv]
  rw [steps_eq_monday h, dateValue, if_pos ⟨by omega, by omega⟩]

/-- The integer of a month's two digits. -/
theorem leadingInteger_month {month : ℕ} (hpos : 1 ≤ month) (hle : month ≤ 12) :
    leadingInteger (Decimal.padded 2 month).toList = month := by
  rw [Decimal.padded, String.toList_ofList]
  interval_cases month <;> rfl

theorem quarterMonth_value (h : d.Valid) (hv : v.hour? = some (d, hour)) :
    quarterMonth.value v = .int ((d.month - 1) / 3 * 3 + 1 : ℕ) := by
  have hformat : formatDate? d hour "%m".toList = some (Decimal.padded 2 d.month).toList := by
    simp [formatDate?, datePart?]
  have hmonth : (DateTerm.integer (.formatted "%m")).value v = .int d.month := by
    show ((DateTerm.formatted "%m").value v).asInteger = _
    rw [DateTerm.value_formatted hv hformat]
    exact congrArg Value.int (leadingInteger_month h.1 h.2.1)
  have hpos := h.1
  have hle := h.2.1
  simp only [quarterMonth, DateTerm.value] at hmonth ⊢
  rw [hmonth]
  generalize d.month = month at hpos hle ⊢
  interval_cases month <;> rfl

theorem twoDigits_toInt (n : ℕ) : twoDigits (Value.int n).toInt = Decimal.padded 2 n := by
  show twoDigits n = _
  rw [twoDigits, if_neg (by omega), Int.natAbs_natCast]

theorem periodOf_quarter (h : d.Valid) (hv : v.hour? = some (d, hour)) :
    periodOf .quarter v = .text (Date.text ⟨d.year, (d.month - 1) / 3 * 3 + 1, 1⟩) := by
  have hformat : formatDate? d hour "%Y".toList = some (Decimal.padded 4 d.year.toNat).toList := by
    simp [formatDate?, datePart?]
  show DateTerm.value v (.printed "%s-%02d-01" (.formatted "%Y") quarterMonth) = _
  rw [DateTerm.value, quarterMonth_value h hv, DateTerm.value_formatted hv hformat]
  have hprinted : formatValues "%s-%02d-01".toList
      [.text (Decimal.padded 4 d.year.toNat), .int ((d.month - 1) / 3 * 3 + 1 : ℕ)] =
      (Date.text ⟨d.year, (d.month - 1) / 3 * 3 + 1, 1⟩).toList := by
    have hmonth := twoDigits_toInt ((d.month - 1) / 3 * 3 + 1)
    generalize (d.month - 1) / 3 * 3 + 1 = month at hmonth ⊢
    simp [formatValues, Value.written, hmonth, Date.text, padded_one]
  rw [hprinted, String.ofList_toList]

end

/-- The period of a stored moment is named by the text of its first instant. -/
theorem Stores.periodOf {t : Moment} {s : String} (hs : Stores t s) (ht : t.Shown) (bucket : TimeBucket) :
    periodOf bucket (.text s) = .text (instantText bucket (firstInstant bucket t)) := by
  have hv : (Value.text s).hour? = some (t.date, t.hour) := hs.hour? ht
  cases bucket with
  | hour =>
    rw [periodOf_hour hv]
    refine congrArg Value.text (String.toList_inj.mp ?_)
    rw [instantText_firstInstant_hour]
    simp only [String.toList_append, List.append_assoc]
  | day => exact periodOf_day hv
  | week => exact periodOf_week ht.date ht.from_year ht.to_year hv
  | month => exact periodOf_month hv
  | quarter => exact periodOf_quarter ht.date hv
  | year => exact periodOf_year hv

/-- The text of a first instant stores it. -/
theorem stores_instantText (bucket : TimeBucket) (t : Moment) :
    Stores (firstInstant bucket t) (instantText bucket (firstInstant bucket t)) := by
  by_cases hhour : bucket = .hour
  · rw [hhour]
    exact .clock _ rfl
  · rw [firstInstant_of_ne hhour, instantText_of_ne hhour]
    exact .date _

/-- The period of a stored moment is named by the text of the first instant of the moment's hour, day, week from
Monday on, month, quarter or year.  Two names are equal exactly for moments of one period, later moments have no
lesser names, and a name is its own period. -/
theorem periodOf_stored (bucket : TimeBucket) {t : Moment} {s : String} (ht : t.Shown) (hs : Stores t s) :
    (∃ i, FirstInstant bucket i t ∧ periodOf bucket (.text s) = .text (instantText bucket i)) ∧
      periodOf bucket (periodOf bucket (.text s)) = periodOf bucket (.text s) ∧
      ∀ (u : Moment) (r : String), u.Shown → Stores u r →
        (periodOf bucket (.text s) = periodOf bucket (.text r) ↔ SamePeriod bucket t u) ∧
        (t.micros ≤ u.micros → ∃ a b, periodOf bucket (.text s) = .text a ∧ periodOf bucket (.text r) = .text b ∧
          a ≤ b) := by
  have hperiod := hs.periodOf ht bucket
  refine ⟨⟨firstInstant bucket t, ht.isFirstInstant, hperiod⟩, ?_, fun u r hu hr => ?_⟩
  · rw [hperiod, (stores_instantText bucket t).periodOf (ht.firstInstant bucket), firstInstant_firstInstant ht]
  · have hperiod' := hr.periodOf hu bucket
    rw [hperiod, hperiod']
    refine ⟨?_, fun hle => ⟨_, _, rfl, rfl, ?_⟩⟩
    · rw [samePeriod_iff ht hu, Value.text.injEq]
      exact ⟨ht.firstInstant_eq_of_text hu, congrArg _⟩
    · rcases ht.firstInstant_order hu hle bucket with heq | hlt
      · rw [heq]
      · exact (String.lt_iff_toList_lt.mpr hlt).le

/-- The last millisecond of a Sunday is in the week that starts on the Monday before, in the other year. -/
theorem periodOf_stored_sunday :
    let t : Moment := ⟨⟨2023, 1, 1⟩, 23, 59, 59, 999000, none⟩
    t.Shown ∧ Stores t (storedMoment t) ∧
      (∃ i, FirstInstant .week i t ∧ periodOf .week (.text (storedMoment t)) = .text (instantText .week i)) ∧
      (periodOf .week (.text (storedMoment t)) = periodOf .week (.text "2022-12-26") ↔
        SamePeriod .week t (.ofDate ⟨2022, 12, 26⟩)) := by
  have ht : Moment.Shown ⟨⟨2023, 1, 1⟩, 23, 59, 59, 999000, none⟩ :=
    ⟨by decide, by decide, by decide, by decide, by decide, by decide, by decide, rfl⟩
  have hu : (Moment.ofDate ⟨2022, 12, 26⟩).Shown :=
    Moment.shown_ofDate (by decide) (by decide) (by decide)
  have hr : Stores (.ofDate ⟨2022, 12, 26⟩) "2022-12-26" := Stores.date ⟨2022, 12, 26⟩
  obtain ⟨hfirst, -, hall⟩ := periodOf_stored .week ht (.moment _)
  exact ⟨ht, .moment _, hfirst, (hall _ _ hu hr).1⟩

end AdhocReport.Sql
