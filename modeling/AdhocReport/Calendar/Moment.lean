import AdhocReport.Calendar.Date
import AdhocReport.Decimal.Notation
set_option autoImplicit false

/-!
# Calendar: moments

A moment is a date with a time of day to the microsecond and possibly an offset from universal
time.  Its text is the international one: a `T` between date and time, and no fraction when there
are no microseconds.
-/

namespace AdhocReport.Calendar

/-- A date and a time of day. -/
structure Moment where
  date : Date
  hour : Nat
  minute : Nat
  second : Nat
  micro : Nat
  /-- The offset from universal time in seconds, when one is known. -/
  offset : Option Int
  deriving DecidableEq, Repr, Inhabited

namespace Date

/-- The text of a date. -/
def text (d : Date) : String :=
  Decimal.padded 4 d.year.toNat ++ "-" ++ Decimal.padded 2 d.month ++ "-" ++ Decimal.padded 2 d.day

end Date

namespace Moment

/-- Midnight of a date. -/
def ofDate (d : Date) : Moment := ⟨d, 0, 0, 0, 0, none⟩

/-- Hours, minutes and seconds. -/
def clockText (m : Moment) : String :=
  Decimal.padded 2 m.hour ++ ":" ++ Decimal.padded 2 m.minute ++ ":" ++ Decimal.padded 2 m.second

/-- The fraction of the second, empty when there is none. -/
def fractionText (m : Moment) : String := if m.micro == 0 then "" else "." ++ Decimal.padded 6 m.micro

/-- The offset: `Z` for none from universal time, else a sign, hours and minutes. -/
def offsetText (m : Moment) : String :=
  match m.offset with
  | none => ""
  | some s =>
    if s == 0 then "Z"
    else
      let a := s.natAbs
      (if s < 0 then "-" else "+") ++ Decimal.padded 2 (a / 3600) ++ ":" ++ Decimal.padded 2 (a / 60 % 60)

/-- The international text of a moment. -/
def text (m : Moment) : String := m.date.text ++ "T" ++ m.clockText ++ m.fractionText ++ m.offsetText

/-- Microseconds since the start of 1970, the offset left aside. -/
def micros (m : Moment) : Int :=
  (((m.date.ordinal * 24 + m.hour) * 60 + m.minute) * 60 + m.second) * 1000000 + m.micro

/-- The moment a number of microseconds after the start of 1970. -/
def ofMicros (n : Int) (offset : Option Int) : Moment :=
  let day := n / 86400000000
  let rest := (n % 86400000000).toNat
  let seconds := rest / 1000000
  ⟨Date.ofOrdinal day, seconds / 3600, seconds / 60 % 60, seconds % 60, rest % 1000000, offset⟩

/-- The moment a number of microseconds later. -/
def addMicros (m : Moment) (n : Int) : Moment := ofMicros (m.micros + n) m.offset

/-- The moment a number of seconds later. -/
def addSeconds (m : Moment) (n : Int) : Moment := m.addMicros (n * 1000000)

end Moment

end AdhocReport.Calendar
