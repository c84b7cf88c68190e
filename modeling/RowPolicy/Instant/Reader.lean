import RowPolicy.Instant.Basic
import RowPolicy.Text.Blank

namespace RowPolicy.Instant

open Text

/-!
# Reading instants — dates with a time of day and an offset

The form read is that of RFC 3339, and more generous: numbers need no leading
zeros, blanks may stand in front of numbers and signs, the zone may be `UTC`,
and a second of 60 is a leap second.  Reading goes from left to right and stops
at the first fault; whether the calendar has the day is asked at the end.

* `Fault` — what can be wrong, with its message;
* `read` — the instant that a text stands for.
-/

/-- Why a text is no instant. -/
inductive Fault where
  /-- The text ends too early. -/
  | incomplete
  /-- A character stands where none of its kind may. -/
  | invalid
  /-- A number is too large or too small, or the calendar lacks the day. -/
  | outOfRange
  /-- Something follows the offset. -/
  | trailing
  /-- The offset leads out of the calendar. -/
  | impossible
  deriving DecidableEq, Repr

/-- The message for a text that is no instant. -/
def Fault.message : Fault → String
  | incomplete => "premature end of input"
  | invalid => "input contains invalid characters"
  | outOfRange => "input is out of range"
  | trailing => "trailing input"
  | impossible => "no possible date and time matching input"

/-! ### Numbers and marks -/

/-- The number that decimal digits stand for. -/
def digitsValue (ds : List Char) : Nat :=
  ds.foldl (fun n d => 10 * n + (d.toNat - '0'.toNat)) 0

/-- The digits at the start of a text, at most `width` of them if a width is
    given; one digit is needed, and what follows them is returned too. -/
def takeDigits (width : Option Nat) (s : List Char) :
    Except Fault (List Char × List Char) :=
  let window := match width with
    | some w => s.take w
    | none => s
  let ds := window.takeWhile Char.isDigit
  if s.isEmpty then .error .incomplete
  else if ds.isEmpty then .error .invalid
  else .ok (ds, s.drop ds.length)

/-- A number of at most two digits within bounds, with blanks in front. -/
def readNumber (least most : Nat) (s : List Char) : Except Fault (Nat × List Char) := do
  let (ds, s) ← takeDigits (some 2) (trimStart s)
  let n := digitsValue ds
  if least ≤ n ∧ n ≤ most then .ok (n, s) else .error .outOfRange

/-- A year: four digits at most, or any number of them behind a sign. -/
def readYear (s : List Char) : Except Fault (Int × List Char) := do
  let (year, s) ← match trimStart s with
    | '-' :: t => do
      let (ds, t) ← takeDigits none t
      .ok (-(digitsValue ds : Int), t)
    | '+' :: t => do
      let (ds, t) ← takeDigits none t
      .ok ((digitsValue ds : Int), t)
    | t => do
      let (ds, t) ← takeDigits (some 4) t
      .ok ((digitsValue ds : Int), t)
  if -0x80000000 ≤ year ∧ year < 0x80000000 then .ok (year, s) else .error .outOfRange

/-- A certain character, with blanks in front. -/
def readMark (mark : Char) (s : List Char) : Except Fault (List Char) :=
  match trimStart s with
  | [] => .error .incomplete
  | c :: t => if c = mark then .ok t else .error .invalid

/-! ### The parts of an instant -/

/-- Year, month and day with hyphens between them.  Any day up to 31 is read. -/
def readDate (s : List Char) : Except Fault (Date × List Char) := do
  let (year, s) ← readYear s
  let s ← readMark '-' s
  let (month, s) ← readNumber 1 12 s
  let s ← readMark '-' s
  let (day, s) ← readNumber 1 31 s
  .ok (⟨year, month, day⟩, s)

/-- The character between date and time. -/
def readSeparator : List Char → Except Fault (List Char)
  | [] => .error .incomplete
  | c :: s => if c = 'T' ∨ c = 't' ∨ c = ' ' then .ok s else .error .invalid

/-- A time of day.  The second may be 60, for a leap second. -/
structure Clock where
  hour : Nat
  minute : Nat
  second : Nat
  /-- Nanoseconds. -/
  fraction : Nat
  deriving DecidableEq, Repr

/-- A fraction of a second in nanoseconds, if a point opens one; digits after
    the ninth are passed over. -/
def readFraction : List Char → Except Fault (Nat × List Char)
  | '.' :: s => do
    let (ds, s) ← takeDigits (some 9) s
    .ok (digitsValue ds * Nat.pow 10 (9 - ds.length), s.dropWhile Char.isDigit)
  | s => .ok (0, s)

/-- Hour, minute and second with colons between them, and a fraction. -/
def readClock (s : List Char) : Except Fault (Clock × List Char) := do
  let (hour, s) ← readNumber 0 23 s
  let s ← readMark ':' s
  let (minute, s) ← readNumber 0 59 s
  let s ← readMark ':' s
  let (second, s) ← readNumber 0 60 s
  let (fraction, s) ← readFraction s
  .ok (⟨hour, minute, second, fraction⟩, s)

/-- The number of exactly two digits.  A lone ASCII character is a text that
    ends too early, anything else is invalid. -/
def readPair (s : List Char) : Except Fault (Nat × List Char) :=
  match s with
  | [] => .error .incomplete
  | [c] => if c.toNat < 128 then .error .incomplete else .error .invalid
  | c :: d :: s =>
    if c.isDigit && d.isDigit then .ok (digitsValue [c, d], s) else .error .invalid

/-- Hours and minutes of an offset in seconds, with colons and blanks between
    them. -/
def readOffsetSize (s : List Char) : Except Fault (Int × List Char) := do
  let (hours, s) ← readPair s
  let (minutes, s) ← readPair (s.dropWhile fun c => c == ':' || isBlank c)
  if minutes < 60 then .ok (hours * 3600 + minutes * 60, s) else .error .outOfRange

/-- The offset from universal time in seconds: `Z`, `UTC` in any case, or a
    signed number of hours and minutes. -/
def readOffset (s : List Char) : Except Fault (Int × List Char) :=
  if (s.take 3).map Char.toUpper = ['U', 'T', 'C'] then .ok (0, s.drop 3)
  else
    match s with
    | [] => .error .incomplete
    | c :: t =>
      if c = 'Z' ∨ c = 'z' then .ok (0, t)
      else if c = '+' then readOffsetSize t
      else if c = '-' ∨ c = '\u2212' then do
        let (size, t) ← readOffsetSize t
        .ok (-size, t)
      else .error .invalid

/-! ### The whole -/

/-- The years the calendar covers. -/
def yearIsCovered (year : Int) : Bool := -262143 ≤ year && year ≤ 262142

/-- The instant at which the clocks at an offset show a date and a time. -/
def ofLocal (date : Date) (clock : Clock) (offset : Int) : Except Fault Instant :=
  if !(date.isValid && yearIsCovered date.year) then .error .outOfRange
  else if offset ≤ -86400 ∨ 86400 ≤ offset then .error .outOfRange
  else
    let leap := clock.second / 60
    let seconds := date.toDays * 86400 +
      (clock.hour * 3600 + clock.minute * 60 + (clock.second - leap) : Nat) - offset
    if yearIsCovered (Date.ofDays (seconds / 86400)).year then
      .ok ⟨seconds, Fin.ofNat _ (clock.fraction + leap * 1000000000)⟩
    else .error .impossible

/-- The instant that a text stands for. -/
def read (text : String) : Except Fault Instant := do
  let (date, s) ← readDate text.toList
  let s ← readSeparator s
  let (clock, s) ← readClock s
  let (offset, s) ← readOffset (trimStart s)
  if (trimStart s).isEmpty then ofLocal date clock offset else .error .trailing

example : (read "2024-02-29T23:59:60.5+00:30").toOption = some ⟨1709249399, 1500000000⟩ := by
  decide +kernel

example : (read "2023-02-29T00:00:00Z").toOption = none := by decide +kernel

end RowPolicy.Instant
