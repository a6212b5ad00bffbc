import AdhocReport.Check.Scalar
import AdhocReport.Calendar.Moment
set_option autoImplicit false

/-!
# Checks: moments

A moment is given as a text: a date, or a date and a time of day with optional seconds, fraction
and offset.  A number counts seconds from the start of 1970, or milliseconds when it is large.
-/

namespace AdhocReport.Check

open AdhocReport.Calendar

/-- The value of decimal digits, or none when another character is among them. -/
def digits? (cs : List Char) : Option Nat :=
  if cs.all Char.isDigit then some (cs.foldl (fun n c => 10 * n + (c.toNat - 48)) 0) else none

/-- The date in the first ten characters, or what is wrong with it. -/
def datePart (cs : List Char) : Except String Date :=
  if cs.length < 10 then .error "input is too short"
  else match digits? (cs.take 4) with
  | none => .error "invalid character in year"
  | some year =>
    if cs[4]? != some '-' then .error "invalid date separator, expected \x60-\x60"
    else match digits? ((cs.drop 5).take 2) with
    | none => .error "invalid character in month"
    | some month =>
      if cs[7]? != some '-' then .error "invalid date separator, expected \x60-\x60"
      else match digits? ((cs.drop 8).take 2) with
      | none => .error "invalid character in day"
      | some day =>
        if month < 1 || 12 < month then .error "month value is outside expected range of 1-12"
        else if day < 1 || daysInMonth year month < day then .error "day value is outside expected range"
        else .ok ⟨year, month, day⟩

/-- A text that is a date and nothing more. -/
def wholeDate (cs : List Char) : Except String Date := do
  let d ← datePart cs
  if cs.length > 10 then .error "unexpected extra characters at the end of the input" else .ok d

/-- Two digits in front. -/
def twoDigits? (cs : List Char) : Option (Nat × List Char) :=
  if cs.length < 2 then none else (digits? (cs.take 2)).map fun n => (n, cs.drop 2)

/-- The offset that a text ends with. -/
def offset? : List Char → Option (Option Int)
  | [] => some none
  | ['Z'] => some (some 0)
  | ['z'] => some (some 0)
  | sign :: rest =>
    if sign == '+' || sign == '-' then do
      let (h, rest) ← twoDigits? rest
      let rest := match rest with
        | ':' :: r => r
        | r => r
      let (m, rest) ← twoDigits? rest
      if !rest.isEmpty || 59 < m || 24 ≤ h then none
      else
        let s : Int := h * 3600 + m * 60
        some (some (if sign == '-' then -s else s))
    else none

/-- A fraction of a second in front, in microseconds; digits after the sixth are dropped. -/
def fraction? : List Char → Option (Nat × List Char)
  | mark :: rest =>
    if mark == '.' || mark == ',' then
      let ds := rest.takeWhile Char.isDigit
      if ds.isEmpty then none
      else (digits? ((ds ++ List.replicate 6 '0').take 6)).map fun n => (n, rest.drop ds.length)
    else some (0, mark :: rest)
  | [] => some (0, [])

/-- A text that is a date and a time of day. -/
def dateTime? (cs : List Char) : Option Moment := do
  let d ← (datePart cs).toOption
  match cs.drop 10 with
  | sep :: rest =>
    if !(sep == 'T' || sep == 't' || sep == ' ' || sep == '_') then none
    else do
      let (h, rest) ← twoDigits? rest
      match rest with
      | ':' :: rest => do
        let (m, rest) ← twoDigits? rest
        let (s, us, rest) ← match rest with
          | ':' :: r => do
            let (s, r) ← twoDigits? r
            let (us, r) ← fraction? r
            some (s, us, r)
          | r => some (0, 0, r)
        let offset ← offset? rest
        if 23 < h || 59 < m || 59 < s then none else some ⟨d, h, m, s, us, offset⟩
      | _ => none
  | [] => none

/-- Numbers beyond this many seconds count milliseconds. -/
def millisecondsFrom : Nat := 20000000000

/-- The moment that a count of seconds or milliseconds denotes. -/
def momentOfCount (n : Int) : Moment :=
  if millisecondsFrom < n.natAbs then Moment.ofMicros (n * 1000) (some 0)
  else Moment.ofMicros (n * 1000000) (some 0)

/-- The moment that a fractional count of seconds or milliseconds denotes. -/
def momentOfFloat (x : Float) : Moment :=
  Moment.ofMicros (Decimal.truncate (if 20000000000.0 < x.abs then x * 1000.0 else x * 1000000.0)) (some 0)

/-- A number counts from 1970 to a date before the year 0. -/
def tooEarly : IssueKind := .momentRange "dates before 0000 are not supported as unix timestamps"

/-- A number counts from 1970 to a date after the year 9999. -/
def tooLate : IssueKind := .momentRange "dates after 9999 are not supported as unix timestamps"

/-- The moment, if its year is one that moments have. -/
def inYears (m : Moment) : Checked Moment :=
  if m.date.year < 0 then .fail tooEarly
  else if m.date.year = 0 then .fail (.momentRange "year 0 is out of range")
  else if 9999 < m.date.year then .fail tooLate
  else .valid m

/-- A moment. -/
def moment : Reader Moment
  | .str s =>
    match dateTime? s.toList with
    | some m => inYears m
    | none =>
      match wholeDate s.toList with
      | .ok d => inYears (Moment.ofDate d)
      | .error text =>
        match intOfText? s with
        | some n => inYears (momentOfCount n)
        | none => .fail (.momentParsing text)
  | .int n => inYears (momentOfCount n)
  | .float x =>
    if x.isNaN then .fail (.momentRange "NaN values not permitted")
    -- Counts of this size are far beyond the years, and finite when they are scaled below it.
    else if x < -1e15 then .fail tooEarly
    else if 1e15 < x then .fail tooLate
    else inYears (momentOfFloat x)
  | _ => .fail .momentType

end AdhocReport.Check
