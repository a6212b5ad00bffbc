set_option autoImplicit false

/-!
# Calendar: dates

Dates of the Gregorian calendar, extended to all years.  The ordinal of a date counts days from
1 January 1970; `next` and `previous` step by one day.
-/

namespace AdhocReport.Calendar

/-- A date. -/
structure Date where
  year : Int
  month : Nat
  day : Nat
  deriving DecidableEq, Repr, Inhabited

/-- The year has a 29 February. -/
def isLeap (year : Int) : Bool := year % 4 == 0 && (year % 100 != 0 || year % 400 == 0)

/-- The number of days of a month. -/
def daysInMonth (year : Int) (month : Nat) : Nat :=
  if month == 2 then if isLeap year then 29 else 28
  else if month == 4 || month == 6 || month == 9 || month == 11 then 30
  else 31

namespace Date

/-- The month and the day exist. -/
def Valid (d : Date) : Prop :=
  1 ≤ d.month ∧ d.month ≤ 12 ∧ 1 ≤ d.day ∧ d.day ≤ daysInMonth d.year d.month

instance (d : Date) : Decidable d.Valid := inferInstanceAs (Decidable (_ ∧ _ ∧ _ ∧ _))

/-- Days before the first of a month within its year. -/
def daysBeforeMonth (year : Int) : Nat → Nat
  | 0 => 0
  | 1 => 0
  | m + 2 => daysBeforeMonth year (m + 1) + daysInMonth year (m + 1)

/-- Days from 1 January 1970 to 1 January of a year. -/
def daysBeforeYear (year : Int) : Int :=
  let y := year - 1
  365 * (year - 1970) + (y / 4 - y / 100 + y / 400) - 477

/-- Days since 1 January 1970. -/
def ordinal (d : Date) : Int :=
  daysBeforeYear d.year + daysBeforeMonth d.year d.month + (d.day : Int) - 1

/-- The following day. -/
def next (d : Date) : Date :=
  if d.day < daysInMonth d.year d.month then { d with day := d.day + 1 }
  else if d.month < 12 then ⟨d.year, d.month + 1, 1⟩
  else ⟨d.year + 1, 1, 1⟩

/-- The day before. -/
def previous (d : Date) : Date :=
  if 1 < d.day then { d with day := d.day - 1 }
  else if 1 < d.month then ⟨d.year, d.month - 1, daysInMonth d.year (d.month - 1)⟩
  else ⟨d.year - 1, 12, 31⟩

/-- The day of the week, counted from Sunday. -/
def weekday (d : Date) : Nat := ((d.ordinal + 4) % 7).toNat

/-- The month that holds the `n`-th day of a year, and the day in it. -/
def monthOfDay (year : Int) : Nat → Nat → Nat → Nat × Nat
  | 0, month, n => (month, n + 1)
  | fuel + 1, month, n =>
    let len := daysInMonth year month
    if n < len then (month, n + 1) else monthOfDay year fuel (month + 1) (n - len)

/-- The year that holds a day, found from an estimate that is at most a few years off. -/
def yearOf (ordinal : Int) : Nat → Int → Int
  | 0, year => year
  | fuel + 1, year =>
    if ordinal < daysBeforeYear year then yearOf ordinal fuel (year - 1)
    else if daysBeforeYear (year + 1) ≤ ordinal then yearOf ordinal fuel (year + 1)
    else year

/-- The date with an ordinal. -/
def ofOrdinal (n : Int) : Date :=
  let year := yearOf n 8 (1970 + n * 400 / 146097)
  let (month, day) := monthOfDay year 11 1 (n - daysBeforeYear year).toNat
  ⟨year, month, day⟩

end Date

end AdhocReport.Calendar
