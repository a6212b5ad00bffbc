import AdhocReport.Calendar.Moment
set_option autoImplicit false

/-!
# Calendar: reading stored dates

A stored date is a year with a month and a day, or with a week and possibly a day of the week; its parts
stand between hyphens, or there are none.  A stored moment is a date, alone or followed by one character
and a time of day: hours, minutes and seconds, of which the later ones may be left out, a fraction of any
length, and an offset from universal time.
-/

namespace AdhocReport.Calendar

/-- Read a fixed number of decimal digits. -/
def fixedDigits? (count : Nat) (cs : List Char) : Option (Nat × List Char) :=
  let ds := cs.take count
  if ds.length == count && ds.all Char.isDigit then
    some (ds.foldl (fun n c => 10 * n + (c.toNat - 48)) 0, cs.drop count)
  else none

/-- Read a separator. -/
def separator? (c : Char) : List Char → Option (List Char)
  | d :: rest => if d == c then some rest else none
  | [] => none

/-- Read a number of two digits, behind a separator if there are separators. -/
def laterDigits? (separator : Option Char) (cs : List Char) : Option (Nat × List Char) :=
  match separator with
  | some c => (separator? c cs).bind (fixedDigits? 2)
  | none => fixedDigits? 2 cs

namespace Date

/-- The ordinal of the Monday that begins the first week of a year, the week of 4 January. -/
def firstMonday (year : Int) : Int :=
  let d : Date := ⟨year, 1, 4⟩
  d.ordinal - (d.weekday + 6) % 7

/-- The date on a day of a week of a year; days count from Monday. -/
def ofWeek? (year : Int) (week day : Nat) : Option Date :=
  let monday := firstMonday year + 7 * ((week : Int) - 1)
  if 1 ≤ week && monday < firstMonday (year + 1) && 1 ≤ day && day ≤ 7 then some (ofOrdinal (monday + day - 1))
  else none

end Date

/-- The day of a week in front of a text that may go on with a time of day: the first day unless one
stands there.  Whatever separates the time may be a hyphen or a digit itself: a hyphen with two characters
of which the second is a digit belongs to the time, and so does the first of three digits, five or more. -/
def weekdayBefore? (hyphens : Bool) (cs : List Char) : Option (Nat × List Char) :=
  match cs with
  | [] => some (1, [])
  | c :: rest =>
    if hyphens then
      if c != '-' || (rest.drop 1).head?.any Char.isDigit then some (1, cs) else fixedDigits? 1 rest
    else
      let digits := (cs.takeWhile Char.isDigit).length
      if digits == 0 || (digits != 1 && digits % 2 == 1) then some (1, cs) else fixedDigits? 1 cs

/-- The date in front of a text. -/
def dateBefore? (cs : List Char) : Option (Date × List Char) := do
  let (year, rest) ← fixedDigits? 4 cs
  let hyphens := rest.head? == some '-'
  let rest := if hyphens then rest.drop 1 else rest
  let (date, rest) ← match rest with
    | 'W' :: rest => do
      let (week, rest) ← fixedDigits? 2 rest
      let (day, rest) ← weekdayBefore? hyphens rest
      (Date.ofWeek? year week day).map fun d => (d, rest)
    | _ => do
      let (month, rest) ← fixedDigits? 2 rest
      let (day, rest) ← laterDigits? (if hyphens then some '-' else none) rest
      some ((⟨year, month, day⟩ : Date), rest)
  if 1 ≤ year && 1 ≤ date.year && date.year ≤ 9999 && decide date.Valid then some (date, rest) else none

/-- Microseconds from the digits of a fraction. -/
def fractionMicros (ds : List Char) : Nat :=
  ((ds ++ List.replicate 6 '0').take 6).foldl (fun n c => 10 * n + (c.toNat - 48)) 0

/-- A time of day on a date. -/
def timeOf? (date : Date) (cs : List Char) : Option Moment := do
  let (hour, rest) ← fixedDigits? 2 cs
  let colon := if rest.head? == some ':' then some ':' else none
  let (minute, rest) ← if rest.isEmpty then some (0, []) else laterDigits? colon rest
  let (second, rest) ← if rest.isEmpty then some (0, []) else laterDigits? colon rest
  let micro ← match rest with
    | [] => some 0
    | mark :: ds =>
      if (mark == '.' || mark == ',') && !ds.isEmpty && ds.all Char.isDigit then some (fractionMicros ds) else none
  if hour < 24 && minute < 60 && second < 60 then some ⟨date, hour, minute, second, micro, none⟩ else none

/-- An offset from universal time, in microseconds. -/
def offsetOf? : List Char → Option Int
  | ['Z'] => some 0
  | '+' :: cs => (timeOf? ⟨1970, 1, 1⟩ cs).map Moment.micros
  | '-' :: cs => (timeOf? ⟨1970, 1, 1⟩ cs).map fun m => -m.micros
  | _ => none

/-- The character begins an offset from universal time. -/
def isOffsetMark (c : Char) : Bool := c == '+' || c == '-' || c == 'Z'

/-- A moment as it is stored, with the offset from universal time that its text gives, in microseconds. -/
structure StoredMoment where
  moment : Moment
  offset : Option Int
  deriving DecidableEq, Repr

/-- The text of an offset: a sign, hours and minutes, and what there is of seconds and their fraction. -/
def offsetText (offset : Int) : String :=
  let size := offset.natAbs
  let seconds := size / 1000000
  let fraction := if size % 1000000 == 0 then "" else "." ++ Decimal.padded 6 (size % 1000000)
  let rest := if size % 60000000 == 0 then "" else ":" ++ Decimal.padded 2 (seconds % 60) ++ fraction
  (if offset < 0 then "-" else "+") ++ Decimal.padded 2 (seconds / 3600) ++ ":" ++
    Decimal.padded 2 (seconds / 60 % 60) ++ rest

/-- The international text of a stored moment. -/
def StoredMoment.text (m : StoredMoment) : String := m.moment.text ++ (m.offset.map offsetText).getD ""

/-- The moment that a stored text denotes. -/
def storedMoment? (s : String) : Option StoredMoment := do
  let (date, rest) ← dateBefore? s.toList
  match rest.drop 1 with
  | [] => some ⟨.ofDate date, none⟩
  | clock =>
    let moment ← timeOf? date (clock.takeWhile fun c => !isOffsetMark c)
    match clock.dropWhile fun c => !isOffsetMark c with
    | [] => some ⟨moment, none⟩
    | mark => (offsetOf? mark).map fun offset => ⟨moment, some offset⟩

/-- The date that a stored text denotes. -/
def storedDate? (s : String) : Option Date := do
  let (date, rest) ← dateBefore? s.toList
  if rest.isEmpty then some date else none

end AdhocReport.Calendar
