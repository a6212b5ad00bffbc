import AdhocReport.Calendar.Date
import Mathlib.Tactic.Ring
set_option autoImplicit false

/-!
# The order of dates

The ordinal counts days: it grows by one from each date to the next, and one date has a smaller ordinal than
another exactly when its year, its month of one year, or its day of one month is smaller.  So dates are known
from their ordinals, and seven days in a row have each day of the week once.
-/

namespace AdhocReport.Calendar

/-- The number of days of a year. -/
def yearLength (year : ℤ) : ℤ := if isLeap year then 366 else 365

theorem isLeap_iff {year : ℤ} : isLeap year = true ↔ year % 4 = 0 ∧ (year % 100 ≠ 0 ∨ year % 400 = 0) := by
  simp [isLeap]

namespace Date

variable {d e : Date}

/-! ## Years -/

theorem daysBeforeYear_succ (year : ℤ) : daysBeforeYear (year + 1) = daysBeforeYear year + yearLength year := by
  unfold yearLength
  simp only [daysBeforeYear]
  split
  · rename_i h
    rw [isLeap_iff] at h
    omega
  · rename_i h
    rw [isLeap_iff] at h
    omega

theorem le_yearLength (year : ℤ) : 365 ≤ yearLength year := by
  unfold yearLength
  split <;> omega

/-- A year ends before any later one starts. -/
theorem daysBeforeYear_of_lt {y z : ℤ} (h : y < z) : daysBeforeYear y + yearLength y ≤ daysBeforeYear z := by
  obtain ⟨n, rfl⟩ : ∃ n : ℕ, z = y + 1 + n := ⟨(z - y - 1).toNat, by omega⟩
  clear h
  induction n with
  | zero => simp [daysBeforeYear_succ]
  | succ n ih =>
    have hstep := daysBeforeYear_succ (y + 1 + n)
    have hlength := le_yearLength (y + 1 + n)
    push_cast
    rw [← add_assoc]
    omega

/-! ## Months -/

theorem daysInMonth_range (year : ℤ) (month : ℕ) : 28 ≤ daysInMonth year month ∧ daysInMonth year month ≤ 31 := by
  unfold daysInMonth
  split
  · split <;> decide
  · split <;> decide

theorem daysBeforeMonth_succ (year : ℤ) {month : ℕ} (h : 1 ≤ month) :
    daysBeforeMonth year (month + 1) = daysBeforeMonth year month + daysInMonth year month := by
  obtain ⟨m, rfl⟩ : ∃ m, month = m + 1 := ⟨month - 1, by omega⟩
  rfl

/-- A month ends before any later one of its year starts. -/
theorem daysBeforeMonth_of_lt (year : ℤ) {m n : ℕ} (hm : 1 ≤ m) (h : m < n) :
    daysBeforeMonth year m + daysInMonth year m ≤ daysBeforeMonth year n := by
  induction n, h using Nat.le_induction with
  | base => exact (daysBeforeMonth_succ year hm).ge
  | succ n hn ih =>
    rw [daysBeforeMonth_succ year (by omega)]
    omega

theorem Valid.month_lt (h : d.Valid) : d.month < 10 ^ 2 := by
  have hle := h.2.1
  omega

theorem Valid.day_lt (h : d.Valid) : d.day < 10 ^ 2 := by
  have hle := h.2.2.2
  have hrange := daysInMonth_range d.year d.month
  omega

/-- The twelve months make up the year. -/
theorem daysBeforeMonth_twelve (year : ℤ) :
    ((daysBeforeMonth year 12 + daysInMonth year 12 : ℕ) : ℤ) = yearLength year := by
  unfold yearLength
  cases hleap : isLeap year <;> simp [daysBeforeMonth, daysInMonth, hleap]

/-- A date lies within its year. -/
theorem Valid.daysBeforeMonth_add_day_le (h : d.Valid) :
    ((daysBeforeMonth d.year d.month + d.day : ℕ) : ℤ) ≤ yearLength d.year := by
  obtain ⟨hmonth, hle, -, hday⟩ := h
  rw [← daysBeforeMonth_twelve]
  rcases Nat.lt_or_eq_of_le hle with hlt | heq
  · have hbefore := daysBeforeMonth_of_lt d.year hmonth hlt
    omega
  · rw [heq] at hday ⊢
    omega

/-! ## The order -/

/-- The date is the earlier one by year, then month, then day. -/
def Before (d e : Date) : Prop :=
  d.year < e.year ∨ d.year = e.year ∧ (d.month < e.month ∨ d.month = e.month ∧ d.day < e.day)

theorem before_cases (d e : Date) : d.Before e ∨ d = e ∨ e.Before d := by
  obtain ⟨y, m, n⟩ := d
  obtain ⟨y', m', n'⟩ := e
  simp only [Before, mk.injEq]
  omega

theorem Before.ordinal_lt (hd : d.Valid) (he : e.Valid) (h : d.Before e) : d.ordinal < e.ordinal := by
  have hday := he.2.2.1
  unfold ordinal
  rcases h with hyear | ⟨hyear, hmonth | ⟨hmonth, hdays⟩⟩
  · have hbefore := daysBeforeYear_of_lt hyear
    have hwithin := hd.daysBeforeMonth_add_day_le
    push_cast at hwithin
    omega
  · have hbefore := daysBeforeMonth_of_lt d.year hd.1 hmonth
    have hlast := hd.2.2.2
    rw [← hyear]
    omega
  · rw [hyear, hmonth]
    omega

/-- One date has a smaller ordinal than another exactly when it is the earlier one. -/
theorem ordinal_lt_iff (hd : d.Valid) (he : e.Valid) : d.ordinal < e.ordinal ↔ d.Before e := by
  refine ⟨fun h => ?_, Before.ordinal_lt hd he⟩
  rcases before_cases d e with hbefore | rfl | hafter
  · exact hbefore
  · exact absurd h (lt_irrefl _)
  · exact absurd h (hafter.ordinal_lt he hd).asymm

/-- A date is known from its ordinal. -/
theorem eq_of_ordinal (hd : d.Valid) (he : e.Valid) (h : d.ordinal = e.ordinal) : d = e := by
  rcases before_cases d e with hbefore | heq | hafter
  · exact absurd h (hbefore.ordinal_lt hd he).ne
  · exact heq
  · exact absurd h.symm (hafter.ordinal_lt he hd).ne

theorem year_le_of_ordinal_le (hd : d.Valid) (he : e.Valid) (h : d.ordinal ≤ e.ordinal) : d.year ≤ e.year := by
  rcases h.lt_or_eq with hlt | heq
  · rcases (ordinal_lt_iff hd he).mp hlt with hyear | ⟨hyear, -⟩
    · exact hyear.le
    · exact hyear.le
  · rw [eq_of_ordinal hd he heq]

/-! ## Days in a row -/

theorem valid_first (year : ℤ) {month : ℕ} (h : 1 ≤ month) (hle : month ≤ 12) : Valid ⟨year, month, 1⟩ :=
  ⟨h, hle, le_rfl, (daysInMonth_range year month).1.trans' (Nat.le_add_left 1 27)⟩

theorem Valid.next (h : d.Valid) : d.next.Valid ∧ d.next.ordinal = d.ordinal + 1 := by
  obtain ⟨hmonth, hle, hday, hlast⟩ := h
  unfold Date.next
  split
  · refine ⟨⟨hmonth, hle, by dsimp only; omega, by dsimp only; omega⟩, ?_⟩
    simp only [ordinal]
    push_cast
    ring
  · have hend : d.day = daysInMonth d.year d.month := by omega
    split
    · refine ⟨valid_first d.year (by omega) (by omega), ?_⟩
      simp only [ordinal, daysBeforeMonth_succ d.year hmonth, hend]
      push_cast
      ring
    · have heq : d.month = 12 := by omega
      refine ⟨valid_first (d.year + 1) le_rfl (Nat.le_add_left 1 11), ?_⟩
      have hyear := daysBeforeMonth_twelve d.year
      have hnew : daysBeforeMonth (d.year + 1) 1 = 0 := rfl
      simp only [ordinal, daysBeforeYear_succ, ← hyear, heq, hend, hnew]
      push_cast
      ring

theorem Valid.previous (h : d.Valid) : d.previous.Valid ∧ d.previous.ordinal = d.ordinal - 1 := by
  obtain ⟨hmonth, hle, hday, hlast⟩ := h
  unfold Date.previous
  split
  · refine ⟨⟨hmonth, hle, by dsimp only; omega, by dsimp only; omega⟩, ?_⟩
    simp only [ordinal]
    omega
  · have hfirst : d.day = 1 := by omega
    split
    · have hrange := daysInMonth_range d.year (d.month - 1)
      refine ⟨⟨by dsimp only; omega, by dsimp only; omega, by dsimp only; omega, le_rfl⟩, ?_⟩
      have hsucc := daysBeforeMonth_succ d.year (show 1 ≤ d.month - 1 by omega)
      rw [Nat.sub_add_cancel hmonth] at hsucc
      simp only [ordinal, hsucc, hfirst]
      push_cast
      ring
    · have heq : d.month = 1 := by omega
      refine ⟨⟨Nat.le_add_left 1 11, le_rfl, Nat.le_add_left 1 30, le_rfl⟩, ?_⟩
      have hyear := daysBeforeMonth_twelve (d.year - 1)
      have hsucc := daysBeforeYear_succ (d.year - 1)
      rw [sub_add_cancel] at hsucc
      have hlast : daysInMonth (d.year - 1) 12 = 31 := rfl
      have hfirst' : daysBeforeMonth d.year 1 = 0 := rfl
      simp only [ordinal, hsucc, ← hyear, heq, hfirst, hlast, hfirst']
      push_cast
      ring

end Date

end AdhocReport.Calendar
