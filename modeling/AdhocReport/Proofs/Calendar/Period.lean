import AdhocReport.Sql.Period
import AdhocReport.Proofs.Calendar.Text
set_option autoImplicit false

/-!
# Calendar periods

The hours, days, weeks, months, quarters and years that moments lie in.  A period has a first instant, which is
again in it; two moments lie in one period exactly when the first instants agree, and later moments have no
earlier first instants.
-/

namespace AdhocReport.Calendar

open Query (TimeBucket)
open Sql (daysLater daysEarlier)

/-! ## Weeks -/

namespace Date

variable {d e : Date}

theorem Valid.daysLater (h : d.Valid) (n : ℕ) : (daysLater n d).Valid ∧ (daysLater n d).ordinal = d.ordinal + n := by
  induction n generalizing d with
  | zero => exact ⟨h, (add_zero _).symm⟩
  | succ n ih =>
    obtain ⟨hvalid, hordinal⟩ := ih h.next.1
    refine ⟨hvalid, hordinal.trans ?_⟩
    rw [h.next.2]
    push_cast
    ring

theorem Valid.daysEarlier (h : d.Valid) (n : ℕ) :
    (daysEarlier n d).Valid ∧ (daysEarlier n d).ordinal = d.ordinal - n := by
  induction n generalizing d with
  | zero => exact ⟨h, (sub_zero _).symm⟩
  | succ n ih =>
    obtain ⟨hvalid, hordinal⟩ := ih h.previous.1
    refine ⟨hvalid, hordinal.trans ?_⟩
    rw [h.previous.2]
    push_cast
    ring

/-- The date is in the week that starts on a Monday. -/
def InWeekOf (monday d : Date) : Prop :=
  monday.Valid ∧ monday.weekday = 1 ∧ monday.ordinal ≤ d.ordinal ∧ d.ordinal < monday.ordinal + 7

/-- The Monday of a week. -/
def monday (d : Date) : Date := daysEarlier ((d.weekday + 6) % 7) d

theorem Valid.inWeekOf_monday (h : d.Valid) : InWeekOf d.monday d := by
  obtain ⟨hvalid, hordinal⟩ := h.daysEarlier ((d.weekday + 6) % 7)
  refine ⟨hvalid, ?_, ?_⟩
  · simp only [weekday, monday] at hordinal ⊢
    omega
  · simp only [weekday, monday] at hordinal ⊢
    omega

/-- Seven days in a row have one Monday. -/
theorem InWeekOf.eq {m n : Date} (hm : InWeekOf m d) (hn : InWeekOf n d) : m = n := by
  obtain ⟨hvalid, hmonday, hrange⟩ := hm
  obtain ⟨hvalid', hmonday', hrange'⟩ := hn
  refine eq_of_ordinal hvalid hvalid' ?_
  simp only [weekday] at hmonday hmonday'
  omega

/-- The year one starts with a Monday, so no week of its reaches back before it. -/
theorem Valid.monday_year (h : d.Valid) (hyear : 1 ≤ d.year) : 1 ≤ d.monday.year ∧ d.monday.year ≤ d.year := by
  obtain ⟨hvalid, hmonday, hle, hlt⟩ := h.inWeekOf_monday
  refine ⟨?_, year_le_of_ordinal_le hvalid h hle⟩
  have hfirst : Valid ⟨1, 1, 1⟩ := by decide
  have hordinal : ordinal ⟨1, 1, 1⟩ = -719162 := by decide
  have hfrom : -719162 ≤ d.ordinal := by
    by_contra hbefore
    rw [← hordinal, not_le, ordinal_lt_iff h hfirst] at hbefore
    have hpos := h.1
    have hpos' := h.2.2.1
    simp only [Before] at hbefore
    omega
  have hback : -719162 ≤ d.monday.ordinal := by
    simp only [weekday] at hmonday
    omega
  exact year_le_of_ordinal_le hfirst hvalid (hordinal.trans_le hback)

end Date

/-! ## Periods -/

/-- Both moments lie in one period: one hour of a day, one day, one week from Monday on, one month of a year, one
quarter of a year, one year. -/
def SamePeriod (bucket : TimeBucket) (t u : Moment) : Prop :=
  match bucket with
  | .hour => t.date = u.date ∧ t.hour = u.hour
  | .day => t.date = u.date
  | .week => ∃ monday : Date, monday.InWeekOf t.date ∧ monday.InWeekOf u.date
  | .month => t.date.year = u.date.year ∧ t.date.month = u.date.month
  | .quarter => t.date.year = u.date.year ∧ (t.date.month - 1) / 3 = (u.date.month - 1) / 3
  | .year => t.date.year = u.date.year

/-- A period can begin with the moment: with a full hour, with midnight, on a Monday, on the first of a month, on
the first of a quarter's first month, on the first of January. -/
def Begins (bucket : TimeBucket) (s : Moment) : Prop :=
  s.minute = 0 ∧ s.second = 0 ∧ s.micro = 0 ∧ match bucket with
    | .hour => True
    | .day => s.hour = 0
    | .week => s.hour = 0 ∧ s.date.weekday = 1
    | .month => s.hour = 0 ∧ s.date.day = 1
    | .quarter => s.hour = 0 ∧ s.date.day = 1 ∧ s.date.month ∈ [1, 4, 7, 10]
    | .year => s.hour = 0 ∧ s.date.day = 1 ∧ s.date.month = 1

/-- The moment `s` is the first one of the period of `t`. -/
structure FirstInstant (bucket : TimeBucket) (s t : Moment) : Prop where
  shown : s.Shown
  begins : Begins bucket s
  same : SamePeriod bucket s t
  first : ∀ u : Moment, u.Shown → SamePeriod bucket u t → s.micros ≤ u.micros

/-- The first day of a period. -/
def firstDay : TimeBucket → Date → Date
  | .hour, d => d
  | .day, d => d
  | .week, d => d.monday
  | .month, d => ⟨d.year, d.month, 1⟩
  | .quarter, d => ⟨d.year, (d.month - 1) / 3 * 3 + 1, 1⟩
  | .year, d => ⟨d.year, 1, 1⟩

/-- The first instant of a period. -/
def firstInstant : TimeBucket → Moment → Moment
  | .hour, t => ⟨t.date, t.hour, 0, 0, 0, none⟩
  | bucket, t => .ofDate (firstDay bucket t.date)

section

variable {bucket : TimeBucket} {t u : Moment}

theorem firstInstant_of_ne (h : bucket ≠ .hour) (t : Moment) :
    firstInstant bucket t = .ofDate (firstDay bucket t.date) := by
  cases bucket with
  | hour => exact absurd rfl h
  | _ => rfl

theorem Date.Valid.firstDay {d : Date} (h : d.Valid) (hyear : 1 ≤ d.year) (bucket : TimeBucket) :
    (firstDay bucket d).Valid ∧ 1 ≤ (firstDay bucket d).year ∧ (firstDay bucket d).year ≤ d.year := by
  have hle := h.2.1
  cases bucket with
  | hour => exact ⟨h, hyear, le_rfl⟩
  | day => exact ⟨h, hyear, le_rfl⟩
  | week => exact ⟨h.inWeekOf_monday.1, h.monday_year hyear⟩
  | month => exact ⟨valid_first d.year h.1 h.2.1, hyear, le_rfl⟩
  | quarter => exact ⟨valid_first d.year (by omega) (by omega), hyear, le_rfl⟩
  | year => exact ⟨valid_first d.year le_rfl (Nat.le_add_left 1 11), hyear, le_rfl⟩

theorem Moment.shown_ofDate {d : Date} (h : d.Valid) (hfrom : 1 ≤ d.year) (hto : d.year ≤ 9999) :
    (ofDate d).Shown :=
  ⟨h, hfrom, hto, Nat.zero_lt_succ _, Nat.zero_lt_succ _, Nat.zero_lt_succ _, Nat.zero_lt_succ _, rfl⟩

theorem Moment.Shown.firstInstant (h : t.Shown) (bucket : TimeBucket) : (firstInstant bucket t).Shown := by
  by_cases hhour : bucket = .hour
  · rw [hhour]
    exact ⟨h.date, h.from_year, h.to_year, h.hour, Nat.zero_lt_succ _, Nat.zero_lt_succ _, Nat.zero_lt_succ _, rfl⟩
  · obtain ⟨hvalid, hfrom, hto⟩ := h.date.firstDay h.from_year bucket
    rw [firstInstant_of_ne hhour]
    exact shown_ofDate hvalid hfrom (hto.trans h.to_year)

theorem samePeriod_firstInstant (h : t.Shown) : SamePeriod bucket (firstInstant bucket t) t := by
  cases bucket with
  | hour => exact ⟨rfl, rfl⟩
  | day => rfl
  | week =>
    obtain ⟨hvalid, hmonday, -⟩ := h.date.inWeekOf_monday
    exact ⟨t.date.monday, ⟨hvalid, hmonday, le_rfl, lt_add_of_pos_right _ (by decide)⟩, h.date.inWeekOf_monday⟩
  | month => exact ⟨rfl, rfl⟩
  | quarter =>
    refine ⟨rfl, ?_⟩
    simp only [firstInstant, firstDay, Moment.ofDate]
    omega
  | year => rfl

/-- Two moments lie in one period exactly when its first instants agree. -/
theorem samePeriod_iff (ht : t.Shown) (hu : u.Shown) :
    SamePeriod bucket t u ↔ firstInstant bucket t = firstInstant bucket u := by
  cases bucket with
  | hour => simp [SamePeriod, firstInstant]
  | day => simp [SamePeriod, firstInstant, firstDay, Moment.ofDate]
  | week =>
    simp only [SamePeriod, firstInstant, firstDay, Moment.ofDate, Moment.mk.injEq, and_true]
    constructor
    · rintro ⟨monday, hwt, hwu⟩
      rw [ht.date.inWeekOf_monday.eq hwt, hu.date.inWeekOf_monday.eq hwu]
    · intro heq
      have hwt := ht.date.inWeekOf_monday
      rw [heq] at hwt
      exact ⟨u.date.monday, hwt, hu.date.inWeekOf_monday⟩
  | month => simp [SamePeriod, firstInstant, firstDay, Moment.ofDate]
  | quarter => simp [SamePeriod, firstInstant, firstDay, Moment.ofDate]
  | year => simp [SamePeriod, firstInstant, firstDay, Moment.ofDate]

theorem Date.Valid.firstDay_le {d : Date} (h : d.Valid) (hyear : 1 ≤ d.year) (bucket : TimeBucket) :
    (Calendar.firstDay bucket d).ordinal ≤ d.ordinal := by
  obtain ⟨hvalid, -⟩ := h.firstDay hyear bucket
  obtain ⟨hmonth, -, hday, -⟩ := id h
  by_contra hlt
  rw [not_le, ordinal_lt_iff h hvalid] at hlt
  cases bucket with
  | hour => exact absurd (hlt.ordinal_lt h h) (lt_irrefl _)
  | day => exact absurd (hlt.ordinal_lt h h) (lt_irrefl _)
  | week => exact absurd (hlt.ordinal_lt h hvalid) (not_lt.mpr h.inWeekOf_monday.2.2.1)
  | month =>
    simp only [Before, Calendar.firstDay] at hlt
    omega
  | quarter =>
    simp only [Before, Calendar.firstDay] at hlt
    omega
  | year =>
    simp only [Before, Calendar.firstDay] at hlt
    omega

theorem Moment.Shown.firstInstant_le (h : t.Shown) (bucket : TimeBucket) :
    (Calendar.firstInstant bucket t).micros ≤ t.micros := by
  by_cases hhour : bucket = .hour
  · rw [hhour]
    simp only [Calendar.firstInstant, micros]
    omega
  · have hle := h.date.firstDay_le h.from_year bucket
    rw [firstInstant_of_ne hhour]
    simp only [micros, ofDate]
    omega

theorem begins_firstInstant (h : t.Shown) : Begins bucket (firstInstant bucket t) := by
  refine ⟨by cases bucket <;> rfl, by cases bucket <;> rfl, by cases bucket <;> rfl, ?_⟩
  cases bucket with
  | hour => trivial
  | day => rfl
  | week => exact ⟨rfl, h.date.inWeekOf_monday.2.1⟩
  | month => exact ⟨rfl, rfl⟩
  | quarter =>
    have hpos := h.date.1
    have hle := h.date.2.1
    refine ⟨rfl, rfl, ?_⟩
    simp only [firstInstant, firstDay, Moment.ofDate, List.mem_cons, List.not_mem_nil, or_false]
    omega
  | year => exact ⟨rfl, rfl, rfl⟩

/-- Every moment's period has a first instant. -/
theorem Moment.Shown.isFirstInstant (h : t.Shown) : FirstInstant bucket (Calendar.firstInstant bucket t) t where
  shown := h.firstInstant bucket
  begins := begins_firstInstant h
  same := samePeriod_firstInstant h
  first u hu hsame := by
    rw [← (samePeriod_iff hu h).mp hsame]
    exact hu.firstInstant_le bucket

/-- A first instant is the first instant of its own period. -/
theorem firstInstant_firstInstant (h : t.Shown) :
    firstInstant bucket (firstInstant bucket t) = firstInstant bucket t :=
  (samePeriod_iff (h.firstInstant bucket) h).mp (samePeriod_firstInstant h)

/-! ## The order of periods -/

/-- A later moment is on a later day, or at a later time of the day. -/
theorem Moment.Shown.before_of_micros_le (ht : t.Shown) (hu : u.Shown) (h : t.micros ≤ u.micros) :
    t.date.Before u.date ∨ t.date = u.date ∧ t.hour ≤ u.hour := by
  obtain ⟨htdate, -, -, hthour, htminute, htsecond, htmicro, -⟩ := ht
  obtain ⟨hudate, -, -, huhour, huminute, husecond, humicro, -⟩ := hu
  simp only [micros] at h
  rcases Date.before_cases t.date u.date with hbefore | heq | hafter
  · exact .inl hbefore
  · rw [heq] at h
    exact .inr ⟨heq, by omega⟩
  · have hordinal := hafter.ordinal_lt hudate htdate
    omega

theorem Date.Before.firstDay {d e : Date} (hd : d.Valid) (he : e.Valid) (h : d.Before e) (bucket : TimeBucket) :
    (firstDay bucket d).Before (firstDay bucket e) ∨ firstDay bucket d = firstDay bucket e := by
  have hpos := hd.1
  have hpos' := he.1
  cases bucket with
  | hour => exact .inl h
  | day => exact .inl h
  | week =>
    have hlt := h.ordinal_lt hd he
    obtain ⟨hvalid, hmonday, hrange⟩ := hd.inWeekOf_monday
    obtain ⟨hvalid', hmonday', hrange'⟩ := he.inWeekOf_monday
    rcases before_cases d.monday e.monday with hbefore | heq | hafter
    · exact .inl hbefore
    · exact .inr heq
    · have hordinal := hafter.ordinal_lt hvalid' hvalid
      simp only [weekday] at hmonday hmonday'
      omega
  | month =>
    simp only [Before, Calendar.firstDay, mk.injEq, and_true] at h ⊢
    omega
  | quarter =>
    simp only [Before, Calendar.firstDay, mk.injEq, and_true] at h ⊢
    omega
  | year =>
    simp only [Before, Calendar.firstDay, mk.injEq, and_true] at h ⊢
    omega

/-! ## The texts of first instants -/

/-- How a first instant is written: the date, for the hour with the time of day. -/
def instantText : TimeBucket → Moment → String
  | .hour, s => s.date.text ++ " " ++ s.clockText
  | _, s => s.date.text

theorem instantText_of_ne (h : bucket ≠ .hour) (s : Moment) : instantText bucket s = s.date.text := by
  cases bucket with
  | hour => exact absurd rfl h
  | _ => rfl

theorem instantText_firstInstant_hour (t : Moment) : (instantText .hour (firstInstant .hour t)).toList =
    t.date.text.toList ++ (" ".toList ++ ((Decimal.padded 2 t.hour).toList ++ ":00:00".toList)) := by
  simp [instantText, firstInstant, Moment.clockText, String.toList_append, Decimal.padded]

/-- A later hour has the greater text. -/
theorem Moment.Shown.hourText_order (ht : t.Shown) (hu : u.Shown)
    (h : t.date.Before u.date ∨ t.date = u.date ∧ t.hour ≤ u.hour) :
    Calendar.firstInstant .hour t = Calendar.firstInstant .hour u ∨
      (instantText .hour (Calendar.firstInstant .hour t)).toList <
        (instantText .hour (Calendar.firstInstant .hour u)).toList := by
  have hyear := ht.from_year
  rw [instantText_firstInstant_hour, instantText_firstInstant_hour]
  rcases h with hbefore | ⟨heq, hhour⟩
  · have hlength := ht.date.length_text ht.to_year
    have hlength' := hu.date.length_text hu.to_year
    exact .inr (Text.append_lt_append_of_lt (hlength.trans hlength'.symm)
      (hbefore.text_lt ht.date hu.date (by omega) hu.to_year))
  · rw [heq]
    rcases hhour.lt_or_eq with hlt | hsame
    · obtain ⟨hlength, -, -⟩ := Check.padded_digits (by decide) (ht.hour.trans (by decide : 24 < 10 ^ 2))
      obtain ⟨hlength', -, -⟩ := Check.padded_digits (by decide) (hu.hour.trans (by decide : 24 < 10 ^ 2))
      exact .inr (List.append_left_lt (List.append_left_lt
        (Text.append_lt_append_of_lt (hlength.trans hlength'.symm)
          (Decimal.padded_lt (by decide) hlt (hu.hour.trans (by decide))))))
    · exact .inl (by simp only [Calendar.firstInstant, heq, hsame])

/-- The later of two moments has no lesser text, and the same one only in the same period. -/
theorem Moment.Shown.firstInstant_order (ht : t.Shown) (hu : u.Shown) (h : t.micros ≤ u.micros)
    (bucket : TimeBucket) : Calendar.firstInstant bucket t = Calendar.firstInstant bucket u ∨
      (instantText bucket (Calendar.firstInstant bucket t)).toList <
        (instantText bucket (Calendar.firstInstant bucket u)).toList := by
  have hlater := ht.before_of_micros_le hu h
  by_cases hhour : bucket = .hour
  · rw [hhour]
    exact ht.hourText_order hu hlater
  · rw [firstInstant_of_ne hhour, firstInstant_of_ne hhour, instantText_of_ne hhour, instantText_of_ne hhour]
    rcases hlater with hbefore | ⟨heq, -⟩
    · obtain ⟨hvalid, hfrom, -⟩ := ht.date.firstDay ht.from_year bucket
      obtain ⟨hvalid', -, hto⟩ := hu.date.firstDay hu.from_year bucket
      rcases hbefore.firstDay ht.date hu.date bucket with hlt | heq
      · exact .inr (hlt.text_lt hvalid hvalid' (zero_le_one.trans hfrom) (hto.trans hu.to_year))
      · exact .inl (congrArg ofDate heq)
    · exact .inl (congrArg (fun d => ofDate (firstDay bucket d)) heq)

/-- Two first instants with one text are the same. -/
theorem Moment.Shown.firstInstant_eq_of_text (ht : t.Shown) (hu : u.Shown)
    (h : instantText bucket (Calendar.firstInstant bucket t) = instantText bucket (Calendar.firstInstant bucket u)) :
    Calendar.firstInstant bucket t = Calendar.firstInstant bucket u := by
  rcases le_total t.micros u.micros with hle | hle
  · rcases ht.firstInstant_order hu hle bucket with heq | hlt
    · exact heq
    · rw [h] at hlt
      exact absurd hlt (List.lt_irrefl _)
  · rcases hu.firstInstant_order ht hle bucket with heq | hlt
    · exact heq.symm
    · rw [h] at hlt
      exact absurd hlt (List.lt_irrefl _)

end

end AdhocReport.Calendar
