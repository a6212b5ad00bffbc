import AdhocReport.Calendar.Moment
set_option autoImplicit false

/-!
# Calendar: spans of time

A span is the time between two moments, in microseconds; it may be negative.  Its international text
counts years of 365 days, days, hours, minutes and seconds, and leaves out what is zero.
-/

namespace AdhocReport.Calendar

/-- The time between two moments. -/
structure Span where
  micros : Int
  deriving DecidableEq, Repr, Inhabited

namespace Span

/-- The span from the start of 1970 to a moment. -/
def sinceEpoch (m : Moment) : Span := ⟨m.micros⟩

/-- A number with a mark behind it, empty for zero. -/
def countText (n : Nat) (mark : String) : String := if n == 0 then "" else Decimal.natText n ++ mark

/-- Seconds with their fraction, which has no zeros at its end; empty for zero. -/
def secondsText (seconds micro : Nat) : String :=
  if seconds == 0 && micro == 0 then ""
  else
    let digits := (((Decimal.padded 6 micro).toList.reverse.dropWhile (· == '0')).reverse)
    let fraction := if micro == 0 then "" else "." ++ String.ofList digits
    Decimal.natText seconds ++ fraction ++ "S"

/-- The international text of a span. -/
def text (d : Span) : String :=
  let size := d.micros.natAbs
  let days := size / 86400000000
  let seconds := size / 1000000 % 86400
  let date := countText (days / 365) "Y" ++ countText (days % 365) "D"
  let clock := countText (seconds / 3600) "H" ++ countText (seconds / 60 % 60) "M" ++
    secondsText (seconds % 60) (size % 1000000)
  let clock := if clock == "" then "" else "T" ++ clock
  (if d.micros < 0 then "-" else "") ++ "P" ++ (if size == 0 then "T0S" else date ++ clock)

end Span

end AdhocReport.Calendar
