import Mathlib.Data.List.TakeWhile
import Mathlib.Data.Nat.Digits.Defs
import RowPolicy.Json.Number
import RowPolicy.Proofs.Success

namespace RowPolicy.Json

/-!
# Integers as JSON numbers are read

An integer that fits 64 bits, with a sign or without one, is read as it is; beyond them it is
read as a float, and `-0` is a float in any case.

* `IsWord`, `Reading.ofInteger` — the integers that fit, and what an integer is read as;
* `Numeral.int`, `Numeral.IsLiteral` — the integer that a numeral stands for, if it does;
* `Numeral.scan_canonical` — no zero stands in front of other digits;
* `Numeral.value_eq_some` — what a numeral is read as.
-/

/-- The integers of 64 bits, with a sign or without one. -/
def IsWord (n : Int) : Prop := -0x8000000000000000 ≤ n ∧ n < 0x10000000000000000

instance (n : Int) : Decidable (IsWord n) := inferInstanceAs (Decidable (_ ∧ _))

namespace Numeral

/-- The digits of a number, the first one first. -/
def digitsOf (n : Nat) : List Nat := (Nat.digits 10 n).reverse

/-- The float that an integer beyond 64 bits is read as. -/
def nearest (n : Int) : Float :=
  let (m, dropped) := append 0 (digitsOf n.natAbs)
  let x := (scaled? m dropped.length).getD 0
  if n < 0 then -x else x

end Numeral

/-- What an integer is read as. -/
def Reading.ofInteger (n : Int) : Reading :=
  if IsWord n then .integer n else .decimal (Numeral.nearest n)

namespace Numeral

/-- The integer that a sign and the digits in front of the point stand for. -/
def int (numeral : Numeral) : Int :=
  if numeral.negative then -(ofDigits numeral.whole : Int) else ofDigits numeral.whole

/-- Whether a numeral is an integer, and not `-0`. -/
def IsLiteral (numeral : Numeral) : Prop :=
  numeral.isInteger = true ∧ ¬ (numeral.negative = true ∧ ofDigits numeral.whole = 0)

instance (numeral : Numeral) : Decidable numeral.IsLiteral := inferInstanceAs (Decidable (_ ∧ _))

/-! ### Scanning -/

/-- What is true of a numeral that was scanned. -/
structure Canonical (numeral : Numeral) : Prop where
  digits : ∀ d ∈ numeral.whole, d < 10
  /-- A zero at the front stands alone. -/
  lead : numeral.whole.head? = some 0 → numeral.whole = [0]
  integer : numeral.isInteger = true → numeral.fraction = [] ∧ numeral.exponent = 0

/-- The value of a digit. -/
theorem digitValue_lt {c : Char} (h : c.isDigit = true) : digitValue c < 10 := by
  rw [Char.isDigit, Bool.and_eq_true, decide_eq_true_eq, decide_eq_true_eq] at h
  have hle : c.toNat ≤ 57 := h.2
  rw [digitValue, show '0'.toNat = 48 from rfl]
  omega

/-- Only one digit stands for nothing. -/
theorem eq_zero_of_digitValue {c : Char} (h : c.isDigit = true) (hzero : digitValue c = 0) :
    c = '0' := by
  rw [Char.isDigit, Bool.and_eq_true, decide_eq_true_eq, decide_eq_true_eq] at h
  have hge : 48 ≤ c.toNat := h.1
  rw [digitValue, show '0'.toNat = 48 from rfl] at hzero
  exact Char.toNat_inj.mp (show c.toNat = 48 by omega)

/-- Digits are scanned from the first one to the last one in a row. -/
theorem digits_eq_ok {s rest : List Char} {ds : List Nat} (h : digits s = .ok (ds, rest)) :
    (∀ d ∈ ds, d < 10) ∧ ∃ c t, s = c :: t ∧ c.isDigit = true ∧
      ds = digitValue c :: (t.takeWhile Char.isDigit).map digitValue := by
  cases s with
  | nil => cases h
  | cons c t =>
    rw [digits] at h
    split at h
    · rename_i hc
      rw [Except.ok.injEq, Prod.mk.injEq] at h
      obtain ⟨rfl, -⟩ := h
      -- all digits are taken from the text, so they are below ten
      refine ⟨fun d hd => ?_, c, t, rfl, hc, by rw [List.takeWhile_cons_of_pos hc]; rfl⟩
      obtain ⟨e, he, rfl⟩ := List.mem_map.mp hd
      exact digitValue_lt (List.mem_takeWhile_imp he)
    · cases h

/-- The digits in front of a point have no leading zero. -/
theorem wholeDigits_eq_ok {s rest : List Char} {ds : List Nat}
    (h : wholeDigits s = .ok (ds, rest)) :
    (∀ d ∈ ds, d < 10) ∧ (ds.head? = some 0 → ds = [0]) := by
  unfold wholeDigits at h
  split at h
  · split at h
    · cases h
    · cases h
      simp
  · rename_i hshape
    obtain ⟨hlt, c, t, rfl, hc, rfl⟩ := digits_eq_ok h
    refine ⟨hlt, fun hzero => ?_⟩
    obtain rfl := eq_zero_of_digitValue hc (Option.some.inj hzero)
    -- behind a zero comes nothing, or the case above applies
    cases t with
    | nil => rfl
    | cons d t => exact absurd rfl (hshape d t)

/-- What is scanned is canonical. -/
theorem scan_canonical {s rest : List Char} {numeral : Numeral}
    (h : scan s = .ok (numeral, rest)) : numeral.Canonical := by
  unfold scan at h
  simp only [bind_eq_ok, pure_eq_ok, Prod.mk.injEq, Prod.exists] at h
  obtain ⟨whole, s₁, hwhole, fraction, s₂, -, exponent, s₃, -, rfl, -⟩ := h
  obtain ⟨hdigits, hlead⟩ := wholeDigits_eq_ok hwhole
  refine ⟨hdigits, hlead, fun hint => ?_⟩
  rw [Bool.and_eq_true, Option.isNone_iff_eq_none, Option.isNone_iff_eq_none] at hint
  rw [hint.1, hint.2]
  exact ⟨rfl, rfl⟩

/-! ### Digits -/

/-- The number that digits stand for, in the form that the library knows. -/
theorem ofDigits_eq (ds : List Nat) : ofDigits ds = Nat.ofDigits 10 ds.reverse := by
  rw [ofDigits, List.foldl_eq_foldr_reverse, Nat.ofDigits_eq_foldr]
  congr 1
  funext d n
  simp
  omega

/-- Canonical digits are those of the number that they stand for. -/
theorem Canonical.digitsOf_ofDigits {numeral : Numeral} (h : numeral.Canonical)
    (hpos : ofDigits numeral.whole ≠ 0) : digitsOf (ofDigits numeral.whole) = numeral.whole := by
  rw [digitsOf, ofDigits_eq, Nat.digits_ofDigits 10 (by decide), List.reverse_reverse]
  · exact fun d hd => h.digits d (List.mem_reverse.mp hd)
  · intro hne hlast
    -- a zero at the front would be all there is
    rw [List.getLast_reverse] at hlast
    have hwhole := h.lead (by rw [List.head?_eq_some_head (by simpa using hne), hlast])
    rw [hwhole] at hpos
    exact hpos rfl

/-- Further digits make a number no smaller. -/
theorem le_foldl (n : Nat) (ds : List Nat) : n ≤ ds.foldl (fun n d => n * 10 + d) n := by
  induction ds generalizing n with
  | nil => exact le_rfl
  | cons d ds ih => exact (by omega : n ≤ n * 10 + d).trans (ih _)

/-- Digits are dropped if and only if their number does not fit 64 bits. -/
theorem append_eq {n : Nat} (ds : List Nat)
    (h : ds.foldl (fun n d => n * 10 + d) n < wordBound) :
    append n ds = (ds.foldl (fun n d => n * 10 + d) n, []) := by
  induction ds generalizing n with
  | nil => rfl
  | cons d ds ih =>
    have hd : n * 10 + d < wordBound := (le_foldl _ ds).trans_lt h
    rw [append, if_pos hd, ih h]
    rfl

/-- Digits of a number beyond the bound do not all fit, so some are left over. -/
theorem append_ne_nil {n : Nat} (hn : n < wordBound) (ds : List Nat)
    (h : wordBound ≤ ds.foldl (fun n d => n * 10 + d) n) : (append n ds).2 ≠ [] := by
  induction ds generalizing n with
  | nil => exact absurd h (not_le.mpr hn)
  | cons d ds ih =>
    rw [append]
    split
    · rename_i hd
      exact ih hd h
    · simp

/-! ### Values -/

/-- The value of a numeral without a fraction and an exponent. -/
theorem value_of_isInteger {numeral : Numeral} (hint : numeral.isInteger = true)
    (hcanonical : numeral.Canonical) :
    numeral.value? =
      let (n, dropped) := append 0 numeral.whole
      if dropped = [] ∧ numeral.negative = false then some (.integer n)
      else if dropped = [] ∧ 0 < n ∧ n ≤ wordBound / 2 then some (.integer (-n))
      else (scaled? n dropped.length).map fun x =>
        .decimal (if numeral.negative then -x else x) := by
  obtain ⟨hfraction, hexponent⟩ := hcanonical.integer hint
  simp [value?, hint, hfraction, hexponent, append]

/-- The integer of a numeral fits 64 bits if its digits do, with half of the room below zero. -/
theorem isWord_int (numeral : Numeral) : IsWord numeral.int ↔
    ofDigits numeral.whole < wordBound ∧
      (numeral.negative = true → ofDigits numeral.whole ≤ wordBound / 2) := by
  unfold IsWord int wordBound
  cases numeral.negative <;> simp; omega

/-- The digits that are kept, of a number that fits 64 bits. -/
theorem append_eq_of_dropped {ds : List Nat} (h : (append 0 ds).2 = []) :
    ofDigits ds < wordBound ∧ (append 0 ds).1 = ofDigits ds := by
  have hlt : ofDigits ds < wordBound := by
    by_contra hge
    exact append_ne_nil (by decide) ds (not_lt.mp hge) h
  exact ⟨hlt, by rw [append_eq ds hlt]; rfl⟩

/-- The digits of a canonical numeral are those of its integer, so both are scaled alike. -/
theorem Canonical.nearest_int {numeral : Numeral} (hcanonical : numeral.Canonical)
    (hpos : ofDigits numeral.whole ≠ 0) {x : Float}
    (hx : scaled? (append 0 numeral.whole).1 (append 0 numeral.whole).2.length = some x) :
    nearest numeral.int = if numeral.negative then -x else x := by
  have habs : numeral.int.natAbs = ofDigits numeral.whole := by
    unfold int
    split <;> simp
  have hsign : numeral.int < 0 ↔ numeral.negative = true := by
    unfold int
    cases numeral.negative <;> simp; omega
  simp only [nearest, habs, hcanonical.digitsOf_ofDigits hpos, hx, Option.getD_some, hsign]

/-- An integer that fits 64 bits is kept. -/
theorem value_of_isWord {numeral : Numeral} (hcanonical : numeral.Canonical)
    (hliteral : numeral.IsLiteral) (hword : IsWord numeral.int) :
    numeral.value? = some (.integer numeral.int) := by
  obtain ⟨hlt, hle⟩ := (isWord_int numeral).mp hword
  have happend : append 0 numeral.whole = (ofDigits numeral.whole, []) :=
    append_eq numeral.whole hlt
  rw [value_of_isInteger hliteral.1 hcanonical, happend, int]
  -- below zero there is half the room, and zero itself has no sign
  cases hsign : numeral.negative with
  | false => simp
  | true =>
    have hpos : 0 < ofDigits numeral.whole :=
      Nat.pos_of_ne_zero fun hzero => hliteral.2 ⟨hsign, hzero⟩
    simp [hpos, hle hsign]

/-- An integer beyond 64 bits becomes a float, if there is one. -/
theorem value_of_not_isWord {numeral : Numeral} (hcanonical : numeral.Canonical)
    (hliteral : numeral.IsLiteral) (hword : ¬ IsWord numeral.int) {r : Reading}
    (h : numeral.value? = some r) : r = .decimal (nearest numeral.int) := by
  rw [isWord_int] at hword
  have hpos : ofDigits numeral.whole ≠ 0 := by
    intro hzero
    rw [hzero] at hword
    exact hword ⟨by decide, fun _ => Nat.zero_le _⟩
  rw [value_of_isInteger hliteral.1 hcanonical] at h
  dsimp only at h
  -- in both of the first cases no digit would be dropped
  rw [if_neg, if_neg] at h
  · obtain ⟨x, hx, rfl⟩ := Option.map_eq_some_iff.mp h
    rw [hcanonical.nearest_int hpos hx]
  · rintro ⟨hdropped, -, hle⟩
    obtain ⟨hlt, hn⟩ := append_eq_of_dropped hdropped
    exact hword ⟨hlt, fun _ => hn ▸ hle⟩
  · rintro ⟨hdropped, hsign⟩
    exact hword ⟨(append_eq_of_dropped hdropped).1, by simp [hsign]⟩

/-- A numeral that is no integer literal is read as a float. -/
theorem value_of_not_isLiteral {numeral : Numeral} (hcanonical : numeral.Canonical)
    (hliteral : ¬ numeral.IsLiteral) {r : Reading} (h : numeral.value? = some r) :
    ∃ x, r = .decimal x := by
  cases hint : numeral.isInteger with
  | false =>
    simp only [value?, hint, Bool.false_eq_true, false_and, if_false, Option.map_eq_some_iff] at h
    obtain ⟨x, -, rfl⟩ := h
    exact ⟨_, rfl⟩
  | true =>
    -- a zero with a sign
    obtain ⟨hsign, hzero⟩ : numeral.negative = true ∧ ofDigits numeral.whole = 0 := by
      simpa [IsLiteral, hint] using hliteral
    have happend : append 0 numeral.whole = (0, []) := by
      rw [append_eq numeral.whole (show ofDigits numeral.whole < wordBound by rw [hzero]; decide)]
      exact Prod.ext hzero rfl
    rw [value_of_isInteger hint hcanonical, happend] at h
    simp only [hsign, Bool.true_eq_false, and_false, if_false, lt_irrefl, false_and,
      Option.map_eq_some_iff] at h
    obtain ⟨x, -, rfl⟩ := h
    exact ⟨_, rfl⟩

/-- **Numbers as they are read.** A numeral for an integer other than `-0` is read as that
    integer is, every other numeral as a float. -/
theorem value_eq_some {numeral : Numeral} (hcanonical : numeral.Canonical) {r : Reading}
    (h : numeral.value? = some r) :
    (numeral.IsLiteral ∧ r = .ofInteger numeral.int) ∨
      (¬ numeral.IsLiteral ∧ ∃ x, r = .decimal x) := by
  -- an integer literal is an integer or a float by its size alone
  by_cases hliteral : numeral.IsLiteral
  · refine .inl ⟨hliteral, ?_⟩
    rw [Reading.ofInteger]
    split
    · rename_i hword
      rw [value_of_isWord hcanonical hliteral hword] at h
      exact (Option.some.inj h).symm
    · rename_i hword
      exact value_of_not_isWord hcanonical hliteral hword h
  · exact .inr ⟨hliteral, value_of_not_isLiteral hcanonical hliteral h⟩

end Numeral

end RowPolicy.Json
