import RowPolicy.Decimal.Shortest

namespace RowPolicy.Decimal

/-!
# Layout of floats — from digits to text

Which digits a float has is settled by `Binary.shortest`; how they are laid out
is a `Layout`.  Two of them are in use: `plain` for SQL literals, which never
have an exponent, and `scientific` for messages.

* `Layout.write` — the text of a finite float.
-/

/-- The decisions about the text of a float. -/
structure Layout where
  /-- The exponents of the leading digit that are written without an exponent,
      as a closed range; `none` if all are. -/
  positional : Option (Int × Int)
  /-- Whether a whole number ends in `.0`. -/
  pointZero : Bool
  /-- Which of two equally near decimals is written. -/
  tie : Tie

/-- Floats in SQL: digits and at most one point. -/
def Layout.plain : Layout where
  positional := none
  pointZero := false
  tie := .up

/-- Floats in messages: an exponent for very large and very small ones, and
    always a sign of being no integer. -/
def Layout.scientific : Layout where
  positional := some (-5, 15)
  pointZero := true
  tie := .toEven

/-- The digits of a natural number, most significant first. -/
def digits (n : Nat) : List Char := Nat.toDigits 10 n

/-- A decimal with the point in place: behind the digits, between them or in
    front of them. -/
def Scientific.positional (s : Scientific) (pointZero : Bool) : List Char :=
  let ds := digits s.coefficient
  let whole := ds.length + s.exponent
  if 0 ≤ s.exponent then
    ds ++ List.replicate s.exponent.toNat '0' ++ (if pointZero then ['.', '0'] else [])
  else if 0 < whole then
    ds.take whole.toNat ++ '.' :: ds.drop whole.toNat
  else
    '0' :: '.' :: (List.replicate (-whole).toNat '0' ++ ds)

/-- A decimal as one digit, a fraction if there are more, and an exponent with
    its sign. -/
def Scientific.exponential (s : Scientific) : List Char :=
  let ds := digits s.coefficient
  let e := ds.length - 1 + s.exponent
  ds.take 1 ++ (if ds.length = 1 then [] else '.' :: ds.drop 1) ++
    'e' :: (if e < 0 then '-' else '+') :: digits e.natAbs

/-- The text of a finite float. -/
def Layout.write (layout : Layout) (x : Float) : String :=
  let s := (Binary.ofBits x.toBits).shortest layout.tie
  let lead := (digits s.coefficient).length - 1 + s.exponent
  let body :=
    match layout.positional with
    | none => s.positional layout.pointZero
    | some (least, most) =>
      if s.coefficient = 0 ∨ least ≤ lead ∧ lead ≤ most then s.positional layout.pointZero
      else s.exponential
  String.ofList (if x.toBits < 0x8000000000000000 then body else '-' :: body)

example : Layout.plain.write 1e21 = "1000000000000000000000" := by decide +kernel

example : Layout.plain.write (-0.000125) = "-0.000125" := by decide +kernel

example : Layout.scientific.write 3.0 = "3.0" := by decide +kernel

end RowPolicy.Decimal
