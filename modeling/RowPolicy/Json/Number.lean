import RowPolicy.Json.Reading

namespace RowPolicy.Json

/-!
# Numbers in JSON text

A numeral is cut into its parts first and evaluated then.  An integer that fits
64 bits is kept as it is.  Everything else becomes a float: as many leading
digits as fit 64 bits are kept, the others only count towards the exponent, and
the product with the power of ten is rounded once more.

* `Numeral.scan` — the numeral at the start of a text;
* `Numeral.value?` — its value, none if it is too large for a float.
-/

/-- A number as it is written. -/
structure Numeral where
  negative : Bool
  /-- The digits in front of the point. -/
  whole : List Nat
  /-- The digits behind the point. -/
  fraction : List Nat
  exponent : Int
  /-- Whether there is neither a point nor an exponent. -/
  isInteger : Bool
  deriving DecidableEq, Repr

namespace Numeral

/-! ### Scanning -/

/-- The value of a digit. -/
def digitValue (c : Char) : Nat := c.toNat - '0'.toNat

/-- The digits at the start of a text, of which there must be one, and the
    rest. -/
def digits : List Char → Except Stop (List Nat × List Char)
  | [] => .error .truncated
  | c :: s =>
    if c.isDigit then
      .ok (((c :: s).takeWhile Char.isDigit).map digitValue, s.dropWhile Char.isDigit)
    else .error .malformed

/-- The digits of an integer: no zero stands in front of other digits. -/
def wholeDigits : List Char → Except Stop (List Nat × List Char)
  | '0' :: c :: s => if c.isDigit then .error .malformed else .ok ([0], c :: s)
  | s => digits s

/-- The digits behind a point, if there is a point. -/
def fractionDigits : List Char → Except Stop (Option (List Nat) × List Char)
  | '.' :: s => do
    let (ds, rest) ← digits s
    return (some ds, rest)
  | s => .ok (none, s)

/-- The number that digits stand for. -/
def ofDigits (ds : List Nat) : Nat := ds.foldl (fun n d => n * 10 + d) 0

/-- A sign in front of an exponent: whether it is a minus, and the rest. -/
def sign : List Char → Bool × List Char
  | '-' :: s => (true, s)
  | '+' :: s => (false, s)
  | s => (false, s)

/-- The exponent, if there is one. -/
def exponentPart : List Char → Except Stop (Option Int × List Char)
  | [] => .ok (none, [])
  | c :: s =>
    if c = 'e' ∨ c = 'E' then do
      let (negative, s) := sign s
      let (ds, rest) ← digits s
      return (some (if negative then -(ofDigits ds : Int) else ofDigits ds), rest)
    else .ok (none, c :: s)

/-- The minus in front of a number, and the rest. -/
def minus : List Char → Bool × List Char
  | '-' :: s => (true, s)
  | s => (false, s)

/-- The numeral at the start of a text, and the rest. -/
def scan (s : List Char) : Except Stop (Numeral × List Char) := do
  let (negative, s) := minus s
  let (whole, s) ← wholeDigits s
  let (fraction, s) ← fractionDigits s
  let (exponent, s) ← exponentPart s
  let isInteger := fraction.isNone && exponent.isNone
  let numeral : Numeral :=
    { negative, whole, fraction := fraction.getD [], exponent := exponent.getD 0, isInteger }
  return (numeral, s)

/-! ### Evaluation -/

/-- One more than the greatest number of 64 bits. -/
def wordBound : Nat := 0x10000000000000000

/-- `n` with as many of the digits appended as fit 64 bits, and the digits that
    are left. -/
def append (n : Nat) : List Nat → Nat × List Nat
  | [] => (n, [])
  | d :: ds => if n * 10 + d < wordBound then append (n * 10 + d) ds else (n, d :: ds)

/-- A power of ten as a float, up to `10 ^ 308`. -/
def powerOfTen (e : Nat) : Float := Float.ofScientific 1 false e

/-- The float `n * 10 ^ e`, with `n` and each power rounded before the product;
    none if it is too large. -/
def scaled? (n : Nat) (e : Int) : Option Float :=
  let x := n.toUInt64.toFloat
  if n = 0 then some x
  else if 308 < e then none
  else if 0 ≤ e then
    let y := x * powerOfTen e.toNat
    if y.isInf then none else some y
  else if -308 ≤ e then some (x / powerOfTen (-e).toNat)
  else if -616 ≤ e then some (x / powerOfTen 308 / powerOfTen (-e - 308).toNat)
  else some 0.0

/-- The value of a numeral: an integer from `-2 ^ 63` to `2 ^ 64 - 1` that is
    written as one, except for `-0`, else a float. -/
def value? (numeral : Numeral) : Option Reading :=
  let (n, dropped) := append 0 numeral.whole
  let (m, cut) := append n numeral.fraction
  let e := dropped.length + cut.length - numeral.fraction.length + numeral.exponent
  if numeral.isInteger ∧ dropped = [] ∧ numeral.negative = false then some (.integer n)
  else if numeral.isInteger ∧ dropped = [] ∧ 0 < n ∧ n ≤ wordBound / 2 then some (.integer (-n))
  else (scaled? m e).map fun x => .decimal (if numeral.negative then -x else x)

example : (scan "-12.50e3,".toList).toOption =
    some ({ negative := true, whole := [1, 2], fraction := [5, 0], exponent := 3,
            isInteger := false }, [',']) := by decide +kernel

example : (scaled? 15 (-1)).map Float.toBits = some 0x3FF8000000000000 := by decide +kernel

example : (scaled? 1 309).isNone = true := by decide +kernel

end Numeral

end RowPolicy.Json
