namespace RowPolicy

/-!
# Instants — points in time and their text

An instant counts seconds since the start of 1970 in universal time.  Calendar
dates are those of the Gregorian calendar, carried on in both directions.

* `Date.ofDays`, `Date.toDays` — days since 1970-01-01 and calendar dates;
* `Instant.text` — `YYYY-MM-DDTHH:MM:SS.mmmZ`, as an instant is written in SQL.
-/

/-! ### Dates -/

/-- A day of the Gregorian calendar. -/
structure Date where
  year : Int
  month : Nat
  day : Nat
  deriving DecidableEq, Repr

namespace Date

/-- A year with a 29th of February. -/
def isLeapYear (year : Int) : Bool :=
  year % 4 = 0 && (year % 100 != 0 || year % 400 = 0)

/-- The number of days in a month. -/
def daysInMonth (year : Int) (month : Nat) : Nat :=
  if month = 2 then (if isLeapYear year then 29 else 28)
  else if month = 4 ∨ month = 6 ∨ month = 9 ∨ month = 11 then 30
  else 31

/-- Whether the calendar has this day. -/
def isValid (d : Date) : Bool :=
  1 ≤ d.month && d.month ≤ 12 && 1 ≤ d.day && d.day ≤ daysInMonth d.year d.month

/-- Days from 1970-01-01 to a date.  The year is taken to start in March, so
    that the leap day is its last, and 400 years have 146097 days. -/
def toDays (d : Date) : Int :=
  let year := if d.month ≤ 2 then d.year - 1 else d.year
  let month : Int := if d.month ≤ 2 then d.month + 9 else d.month - 3
  let cycle := year / 400
  let inCycle := year % 400
  let inYear := (153 * month + 2) / 5 + d.day - 1
  cycle * 146097 + inCycle * 365 + inCycle / 4 - inCycle / 100 + inYear - 719468

/-- The date that many days after 1970-01-01. -/
def ofDays (days : Int) : Date :=
  let shifted := days + 719468
  let cycle := shifted / 146097
  let rest := shifted % 146097
  let inCycle := (rest - rest / 1460 + rest / 36524 - rest / 146096) / 365
  let inYear := rest - (365 * inCycle + inCycle / 4 - inCycle / 100)
  let month := (5 * inYear + 2) / 153
  let day := inYear - (153 * month + 2) / 5 + 1
  let year := inCycle + cycle * 400
  if month < 10 then ⟨year, (month + 3).toNat, day.toNat⟩
  else ⟨year + 1, (month - 9).toNat, day.toNat⟩

example : (⟨2024, 2, 29⟩ : Date).toDays = 19782 ∧ ofDays 19782 = ⟨2024, 2, 29⟩ := by decide

example : ofDays (-719529) = ⟨-1, 12, 31⟩ := by decide

end Date

/-! ### Instants -/

/-- A point in time. -/
structure Instant where
  /-- Whole seconds since the start of 1970. -/
  seconds : Int
  /-- Nanoseconds within that second; from 1 000 000 000 on they belong to the
      leap second that follows it. -/
  nanos : Fin 2000000000
  deriving DecidableEq, Repr

/-- A number in decimal digits, filled up with zeros on the left. -/
def zeroPadded (width n : Nat) : String :=
  let ds := Nat.toDigits 10 n
  String.ofList (List.replicate (width - ds.length) '0' ++ ds)

/-- A year of four digits; outside 0 to 9999 with a sign and at least four. -/
def yearText (year : Int) : String :=
  if 0 ≤ year ∧ year ≤ 9999 then zeroPadded 4 year.natAbs
  else (if year < 0 then "-" else "+") ++ zeroPadded 4 year.natAbs

/-- An instant to the millisecond, the rest cut off. -/
def Instant.text (t : Instant) : String :=
  let date := Date.ofDays (t.seconds / 86400)
  let second := (t.seconds % 86400).toNat
  let leap := t.nanos.val / 1000000000
  yearText date.year ++ "-" ++ zeroPadded 2 date.month ++ "-" ++ zeroPadded 2 date.day ++
    "T" ++ zeroPadded 2 (second / 3600) ++ ":" ++ zeroPadded 2 (second / 60 % 60) ++
    ":" ++ zeroPadded 2 (second % 60 + leap) ++
    "." ++ zeroPadded 3 (t.nanos.val % 1000000000 / 1000000) ++ "Z"

example : Instant.text ⟨0, 1500000⟩ = "1970-01-01T00:00:00.001Z" := by decide +kernel

example : Instant.text ⟨1483228799, 1500000000⟩ = "2016-12-31T23:59:60.500Z" := by decide +kernel

end RowPolicy
