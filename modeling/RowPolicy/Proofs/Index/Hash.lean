import Mathlib.Algebra.Group.Nat.Defs
import RowPolicy.Proofs.Policy.Statements

namespace RowPolicy.Index

/-!
# The hash in the name of an index

The hash takes in one byte after the other, and each step can be undone: the factor is odd, so
it has an inverse modulo `2 ^ 32`, and a byte that is mixed in twice cancels out.  There are more
texts than hashes, but texts that differ in one byte alone are told apart:

* `hashStep_injective`, `hashStep_byte_injective` — a step, in the hash and in the byte;
* `hashBytes_ne` — two texts that differ in one byte;
* `nameHash_ne` — two columns whose names differ in one byte;
* `hexDigits_injective` — the digits of a number, which stand for the hash in a name.
-/

/-! ### Steps -/

/-- The inverse of the factor of the hash. -/
theorem factor_inverse : (0x01000193 : UInt32) * 0x359C449B = 1 := by decide

/-- What was mixed in can be told from the hash behind it. -/
theorem hashStep_mul_inverse (hash : UInt32) (byte : UInt8) :
    hashStep hash byte * 0x359C449B = hash ^^^ byte.toUInt32 := by
  rw [hashStep, UInt32.mul_assoc, factor_inverse, UInt32.mul_one]

/-- Mixing in a byte loses nothing of the hash: the factor has an inverse. -/
theorem hashStep_injective {hash hash' : UInt32} {byte : UInt8}
    (h : hashStep hash byte = hashStep hash' byte) : hash = hash' := by
  have hmixed := congrArg (· * 0x359C449B) h
  simp only [hashStep_mul_inverse] at hmixed
  exact (UInt32.xor_left_inj _).mp hmixed

/-- Two bytes change a hash in two ways. -/
theorem hashStep_byte_injective {hash : UInt32} {byte byte' : UInt8}
    (h : hashStep hash byte = hashStep hash byte') : byte = byte' := by
  have hmixed := congrArg (· * 0x359C449B) h
  simp only [hashStep_mul_inverse] at hmixed
  exact UInt8.toUInt32_inj.mp ((UInt32.xor_right_inj _).mp hmixed)

/-- The same bytes behind two hashes do not make them equal. -/
theorem foldl_hashStep_injective {hash hash' : UInt32} (bytes : List UInt8)
    (h : bytes.foldl hashStep hash = bytes.foldl hashStep hash') : hash = hash' := by
  induction bytes generalizing hash hash' with
  | nil => exact h
  | cons byte bytes ih => exact hashStep_injective (ih h)

/-! ### Texts -/

/-- Texts that differ in one byte have different hashes. -/
theorem hashBytes_ne {before after : List UInt8} {byte byte' : UInt8} (hne : byte ≠ byte') :
    hashBytes (before ++ byte :: after) ≠ hashBytes (before ++ byte' :: after) := by
  intro h
  simp only [hashBytes, List.foldl_append, List.foldl_cons] at h
  exact hne (hashStep_byte_injective (foldl_hashStep_injective after h))

/-- Columns whose names differ in one byte have different hashes. -/
theorem nameHash_ne (table : String) {c d : String} {before after : List UInt8}
    {byte byte' : UInt8} (hc : c.toUTF8.toList = before ++ byte :: after)
    (hd : d.toUTF8.toList = before ++ byte' :: after) (hne : byte ≠ byte') :
    nameHash table c ≠ nameHash table d := by
  have hbytes (middle : UInt8) : table.toUTF8.toList ++ 0 :: (before ++ middle :: after) =
      (table.toUTF8.toList ++ 0 :: before) ++ middle :: after := by
    simp
  rw [nameHash, nameHash, hc, hd, hbytes, hbytes]
  exact hashBytes_ne hne

/-! ### Digits -/

/-- As many digits are written as there is room for. -/
theorem length_hexDigits (width n : Nat) : (hexDigits width n).length = width := by
  induction width generalizing n with
  | zero => rfl
  | succ width ih => rw [hexDigits, List.length_append, ih, List.length_singleton]

/-- The digits of a number determine it up to what they have no room for. -/
theorem hexDigits_mod {width n m : Nat} (h : hexDigits width n = hexDigits width m) :
    n % 16 ^ width = m % 16 ^ width := by
  have hdigit : ∀ a, a < 16 → ∀ b, b < 16 → Nat.digitChar a = Nat.digitChar b → a = b := by decide
  induction width generalizing n m with
  | zero => rw [Nat.pow_zero, Nat.mod_one, Nat.mod_one]
  | succ width ih =>
    rw [hexDigits, hexDigits] at h
    obtain ⟨hfront, hlast⟩ := List.append_inj h (by rw [length_hexDigits, length_hexDigits])
    have hmod : n % 16 = m % 16 :=
      hdigit _ (Nat.mod_lt _ (by decide)) _ (Nat.mod_lt _ (by decide)) (List.singleton_inj.mp hlast)
    rw [Nat.pow_succ', Nat.mod_mul, Nat.mod_mul, hmod, ih hfront]

/-- Eight digits tell two hashes apart. -/
theorem hexDigits_injective {a b : UInt32} (h : hexDigits 8 a.toNat = hexDigits 8 b.toNat) :
    a = b := by
  have hmod := hexDigits_mod h
  have hfits (c : UInt32) : c.toNat % 16 ^ 8 = c.toNat := Nat.mod_eq_of_lt c.toNat_lt
  rw [hfits, hfits] at hmod
  exact UInt32.toNat_inj.mp hmod

end RowPolicy.Index
