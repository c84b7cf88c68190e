namespace RowPolicy.Decimal

/-!
# Shortest decimals — the fewest digits that read back to a float

A finite binary float is `mantissa · 2 ^ exponent`.  The reals that round to it
form an interval; of all decimals in that interval the shortest are wanted, and
of these the nearest.  Everything is decided on natural numbers:

* `Binary.ofBits` — the magnitude that 64 bits stand for;
* `Binary.reads` — whether `c · 10 ^ g` lies in the interval;
* `Binary.nearestOn` — the nearest multiple of `10 ^ g` in the interval;
* `Binary.shortest` — the first hit on the grids from one digit upwards.
-/

/-- The magnitude `mantissa · 2 ^ exponent` of a finite float. -/
structure Binary where
  mantissa : Nat
  exponent : Int
  /-- The float below is half as far away as the float above. -/
  closerBelow : Bool
  deriving DecidableEq, Repr

/-- The magnitude behind the bits of a finite float; the sign bit plays no
    part. -/
def Binary.ofBits (bits : UInt64) : Binary :=
  let biased : Nat := bits.toNat / 0x10000000000000 % 0x800
  let fraction : Nat := bits.toNat % 0x10000000000000
  if biased = 0 then ⟨fraction, -1074, false⟩
  else ⟨0x10000000000000 + fraction, (biased : Int) - 1075, fraction = 0 && 1 < biased⟩

/-- The decimal number `coefficient · 10 ^ exponent`. -/
structure Scientific where
  coefficient : Nat
  exponent : Int
  deriving DecidableEq, Repr

/-- Numerator and denominator of `n · 2 ^ p / 10 ^ g`. -/
def ratio (n : Nat) (p g : Int) : Nat × Nat :=
  (n * Nat.pow 2 p.toNat * Nat.pow 10 (-g).toNat, Nat.pow 2 (-p).toNat * Nat.pow 10 g.toNat)

/-- Whether `c · 10 ^ g` rounds to the float: it lies between the midpoints to
    the two neighbours, ends included for an even mantissa. -/
def Binary.reads (x : Binary) (c : Nat) (g : Int) : Bool :=
  let gap := if x.closerBelow then 1 else 2
  let (low, unit) := ratio (4 * x.mantissa - gap) (x.exponent - 2) g
  let (high, _) := ratio (4 * x.mantissa + 2) (x.exponent - 2) g
  if x.mantissa % 2 = 0 then low ≤ c * unit && c * unit ≤ high
  else low < c * unit && c * unit < high

/-- What to do with two decimals that are equally near. -/
inductive Tie where
  /-- Take the one with the even last digit. -/
  | toEven
  /-- Take the larger one. -/
  | up
  deriving DecidableEq, Repr

/-- The multiplier of `10 ^ g` that is nearest to the float among those that
    read back to it. -/
def Binary.nearestOn (x : Binary) (tie : Tie) (g : Int) : Option Nat :=
  let (value, unit) := ratio x.mantissa x.exponent g
  let c := value / unit
  match x.reads c g, x.reads (c + 1) g with
  | true, true =>
    match compare (2 * value) ((2 * c + 1) * unit), tie with
    | .lt, _ => some c
    | .gt, _ => some (c + 1)
    | .eq, .up => some (c + 1)
    | .eq, .toEven => some (if c % 2 = 0 then c else c + 1)
  | true, false => some c
  | false, true => some (c + 1)
  | false, false => none

/-- Whether the float is at least `10 ^ g`. -/
def Binary.atLeast (x : Binary) (g : Int) : Bool :=
  let (value, unit) := ratio x.mantissa x.exponent g
  unit ≤ value

/-- The exponent of the leading decimal digit of a non-zero float.  The binary
    logarithm gives it up to two steps, which are then tried. -/
def Binary.leading (x : Binary) : Int :=
  let guess := ((x.mantissa.log2 + x.exponent) * 30103).fdiv 100000 - 1
  if x.atLeast (guess + 2) then guess + 2
  else if x.atLeast (guess + 1) then guess + 1
  else guess

/-- A decimal without the zeros at the end of its coefficient; at most `fuel`
    of them are taken off. -/
def Scientific.strip : Nat → Scientific → Scientific
  | 0, s => s
  | fuel + 1, s =>
    if s.coefficient % 10 = 0 then strip fuel ⟨s.coefficient / 10, s.exponent + 1⟩ else s

/-- The exact value of a float as a decimal. -/
def Binary.exact (x : Binary) : Scientific :=
  ⟨x.mantissa * Nat.pow 2 x.exponent.toNat * Nat.pow 5 (-x.exponent).toNat, min x.exponent 0⟩

/-- The shortest decimal that reads back to the float, and of several the
    nearest.  Seventeen digits are always enough; should they not be, the exact
    value would stand for them. -/
def Binary.shortest (x : Binary) (tie : Tie) : Scientific :=
  if x.mantissa = 0 then ⟨0, 0⟩
  else
    let top := x.leading
    let found := (List.range 17).findSome? fun (n : Nat) =>
      (x.nearestOn tie (top - n)).map fun c => Scientific.mk c (top - n)
    let s := found.getD x.exact
    s.strip s.coefficient.log2

example : (Binary.ofBits 0x3FB999999999999A).shortest .up = ⟨1, -1⟩ := by decide +kernel

example : (Binary.ofBits 1).shortest .up = ⟨5, -324⟩ := by decide +kernel

example : (Binary.ofBits 0x3E60000000000000).shortest .up = ⟨29802322387695313, -24⟩ := by
  decide +kernel

end RowPolicy.Decimal
