import RowPolicy.Proofs.Index.Names

namespace RowPolicy.Index

/-!
# The names of indexes are bare identifiers

Whatever a table and a column are called, the name of the index on it stands without quotes, and
the database does not cut it.  A name counts its bytes: what a character of several bytes is
replaced with has one, so a name is long or short by its sanitised form.

* `fnv1a`, `toNat_hashBytes` — the hash, as arithmetic on natural numbers;
* `hexDigits_eq_leftpad` — its digits, as those of a number with zeros in front;
* `utf8ByteSize_eq_length` — a bare name has as many bytes as characters;
* `name_identifier` — the form of a name, and what two columns with one name have in common.
-/

/-! ### Hashes -/

/-- The 32-bit FNV-1a hash of some bytes: each byte is mixed in with an exclusive or, and then the
    hash is multiplied and cut to 32 bits. -/
def fnv1a (bytes : List UInt8) : Nat :=
  bytes.foldl (fun hash byte => Nat.xor hash byte.toNat * 16777619 % 4294967296) 2166136261

/-- One step of the hash, where 32 bits are what is left of a product. -/
theorem toNat_hashStep (hash : UInt32) (byte : UInt8) :
    (hashStep hash byte).toNat = Nat.xor hash.toNat byte.toNat * 16777619 % 4294967296 := by
  rw [hashStep, UInt32.toNat_mul, UInt32.toNat_xor, UInt8.toNat_toUInt32]
  rfl

/-- Arithmetic on 32 bits is arithmetic on natural numbers that are cut after each step. -/
theorem toNat_hashBytes (bytes : List UInt8) : (hashBytes bytes).toNat = fnv1a bytes := by
  show (bytes.foldl hashStep 0x811C9DC5).toNat =
    bytes.foldl _ (0x811C9DC5 : UInt32).toNat
  generalize (0x811C9DC5 : UInt32) = hash
  induction bytes generalizing hash with
  | nil => rfl
  | cons byte bytes ih => rw [List.foldl_cons, List.foldl_cons, ih, toNat_hashStep]

/-! ### Digits -/

/-- Zeros go in front of all digits but the last as they go in front of all. -/
theorem leftpad_concat {α : Type} (width : Nat) (a x : α) (s : List α) :
    List.leftpad (width + 1) a (s ++ [x]) = List.leftpad width a s ++ [x] := by
  rw [List.leftpad, List.leftpad, List.length_append, List.length_singleton,
    Nat.add_sub_add_right, List.append_assoc]

/-- Zero is written as zeros. -/
theorem hexDigits_zero (width : Nat) : hexDigits width 0 = List.leftpad width '0' [] := by
  induction width with
  | zero => rfl
  | succ width ih =>
    show hexDigits width 0 ++ ['0'] = List.leftpad (width + 1) '0' []
    rw [ih, List.leftpad, List.leftpad, List.append_nil, List.append_nil, List.length_nil,
      Nat.sub_zero, Nat.sub_zero, List.replicate_succ']

/-- Where there is room for a number, its digits have zeros in front of them. -/
theorem hexDigits_eq_leftpad {width n : Nat} (h : (Nat.toDigits 16 n).length ≤ width) :
    hexDigits width n = List.leftpad width '0' (Nat.toDigits 16 n) := by
  induction width generalizing n with
  | zero =>
    -- even zero has a digit, so there is no room for a number
    have hpos : 0 < (Nat.toDigits 16 n).length := Nat.length_toDigits_pos
    omega
  | succ width ih =>
    rw [hexDigits]
    by_cases hn : n < 16
    · -- a single digit, behind zeros only
      rw [Nat.toDigits_of_lt_base hn, Nat.div_eq_of_lt hn, Nat.mod_eq_of_lt hn, hexDigits_zero]
      exact (leftpad_concat width '0' n.digitChar []).symm
    · rw [Nat.toDigits_of_base_le (by decide) (by omega), List.length_append,
        List.length_singleton] at h
      rw [Nat.toDigits_of_base_le (by decide) (by omega), leftpad_concat, ih (by omega)]

/-! ### Bytes -/

/-- A word character takes one byte. -/
theorem utf8Size_eq_one {c : Char} (h : isWordChar c = true) : c.utf8Size = 1 := by
  have hcases : (((c.isUpper || c.isLower) || c.isDigit) || c == '_') = true := h
  -- a letter, a digit or an underscore: each of them comes before the first character of two bytes
  rw [Bool.or_eq_true, Bool.or_eq_true, Bool.or_eq_true, beq_iff_eq] at hcases
  rw [Char.utf8Size_eq_one_iff]
  rcases hcases with ((hupper | hlower) | hdigit) | rfl
  · have hle : c.val ≤ 90 := (of_decide_eq_true hupper).2
    exact UInt32.le_trans hle (by decide)
  · have hle : c.val ≤ 122 := of_decide_eq_true (Bool.and_eq_true_iff.mp hlower).2
    exact UInt32.le_trans hle (by decide)
  · have hle : c.val ≤ 57 := of_decide_eq_true (Bool.and_eq_true_iff.mp hdigit).2
    exact UInt32.le_trans hle (by decide)
  · decide

/-- A text of word characters has as many bytes as characters. -/
theorem utf8ByteSize_eq_length {s : String} (h : ∀ c ∈ s.toList, isWordChar c = true) :
    s.utf8ByteSize = s.length := by
  rw [← String.ofList_toList (s := s), String.length_ofList]
  generalize s.toList = cs at h
  induction cs with
  | nil => rfl
  | cons c cs ih =>
    rw [List.forall_mem_cons] at h
    rw [← List.singleton_append, String.ofList_append, String.utf8ByteSize_append, ih h.2,
      ← String.singleton_eq_ofList, String.utf8ByteSize_singleton, utf8Size_eq_one h.1,
      List.length_append, List.length_singleton]

/-! ### Names -/

/-- A name of an index has no characters that need quotes. -/
theorem forall_name (table column : String) :
    ∀ c ∈ (name table column).toList, isWordChar c = true := by
  have hplain := isPlainName_name table column
  rw [isPlainName, Bool.and_eq_true, List.all_eq_true] at hplain
  exact hplain.2

/-- A name of an index is not longer than the database allows. -/
theorem length_name_le (table column : String) : (name table column).length ≤ maxLength := by
  by_cases hkept : Kept table column
  · rw [name_of_kept hkept]
    exact hkept.2
  · have hbeginning : (beginning table column).length ≤ maxLength - suffixLength :=
      List.length_take_le _ _
    have hfits : suffixLength ≤ maxLength := by decide
    rw [name_of_not_kept hkept, String.length_ofList, List.length_append, length_suffix]
    omega

/-- Every name is bare and short enough, so the full name is the name of an index only where it is
    bare and short enough itself. -/
theorem name_eq_fullName_iff {table column : String} :
    name table column = fullName table column ↔ Kept table column := by
  constructor
  · intro h
    rw [Kept, ← h]
    exact ⟨forall_name table column, length_name_le table column⟩
  · exact name_of_kept

/-- Columns that keep their names have different indexes. -/
theorem eq_of_name_eq {table column other : String} (hcolumn : Kept table column)
    (hother : Kept table other) (h : name table other = name table column) : other = column := by
  rw [name_of_kept hcolumn, name_of_kept hother, fullName, fullName] at h
  exact (String.append_right_inj _).mp h

/-- Cutting a name does not reach its beginning. -/
theorem prefix_name (table column : String) : "idx_".toList <+: (name table column).toList := by
  have hfull : (fullName table column).toList =
      "idx_".toList ++ (table ++ "_" ++ column).toList := by
    rw [fullName, String.append_assoc, String.append_assoc, String.toList_append,
      String.append_assoc]
  by_cases hkept : Kept table column
  · rw [name_of_kept hkept, hfull]
    exact List.prefix_append _ _
  -- the beginning is short enough to be left, and sanitising does not change it
  · have hlead : ("idx_".toList.map sanitize).take (maxLength - suffixLength) = "idx_".toList := by
      decide
    have hname : (name table column).toList = beginning table column ++ suffix table column := by
      rw [name_of_not_kept hkept]
      exact String.toList_ofList
    rw [hname, beginning, hfull, List.map_append, List.take_append, hlead, List.append_assoc]
    exact List.prefix_append _ _

/-- The hash of a table and a column as eight digits: the bytes of the two names with a zero byte
    between them are hashed. -/
def hashDigits (table column : String) : List Char :=
  List.leftpad 8 '0'
    (Nat.toDigits 16 (fnv1a (table.toUTF8.toList ++ 0 :: column.toUTF8.toList)))

/-- A name that is hashed ends with the digits of its hash. -/
theorem suffix_eq (table column : String) :
    suffix table column = '_' :: hashDigits table column := by
  have hdigits : (Nat.toDigits 16 (nameHash table column).toNat).length ≤ 8 := by
    have hlt := (nameHash table column).toNat_lt
    rw [Nat.length_toDigits_le_iff (by decide) (by decide)]
    omega
  rw [suffix, hexDigits_eq_leftpad hdigits, nameHash, toNat_hashBytes, hashDigits]

/-- **Index names are identifiers.** Whatever characters a table and a column have, and however
    many, the name of the index begins with a letter, consists of word characters and has no more
    bytes than the database keeps.  It is the full name just where that is bare and short enough,
    and else the first 54 characters of its sanitised form, or all if there are fewer, and eight
    digits that stand for the hash of both names.  Two columns of a table whose indexes have one
    name do not both have an index with the full name. -/
theorem name_identifier (table column : String) :
    fullName table column = "idx_" ++ table ++ "_" ++ column ∧
      "idx_".toList <+: (name table column).toList ∧
      (∀ c ∈ (name table column).toList, isWordChar c = true) ∧
      (name table column).utf8ByteSize ≤ 63 ∧
      (name table column = fullName table column ↔
        (∀ c ∈ (fullName table column).toList, isWordChar c = true) ∧
          (fullName table column).utf8ByteSize ≤ 63) ∧
      (name table column ≠ fullName table column →
        name table column = String.ofList
          (((fullName table column).toList.map sanitize).take 54 ++
            '_' :: hashDigits table column)) ∧
      ((hashDigits table column).length = 8 ∧
        ∀ d ∈ hashDigits table column, d ∈ "0123456789abcdef".toList) ∧
      ∀ other, other ≠ column → name table other = name table column →
        name table column ≠ fullName table column ∨ name table other ≠ fullName table other := by
  have hhex : hashDigits table column = hexDigits 8 (nameHash table column).toNat :=
    (List.cons.inj (suffix_eq table column)).2.symm
  refine ⟨rfl, prefix_name table column, forall_name table column, ?_, ?_, fun hne => ?_, ?_,
    fun other hother hname => ?_⟩
  · rw [utf8ByteSize_eq_length (forall_name table column)]
    exact length_name_le table column
  -- where the full name is bare, its bytes are counted by its characters
  · rw [name_eq_fullName_iff]
    show (_ ∧ _) ↔ (_ ∧ _)
    refine and_congr_right fun hfull => ?_
    rw [utf8ByteSize_eq_length hfull]
    rfl
  · have hkept : ¬ Kept table column := fun hkept => hne (name_of_kept hkept)
    rw [name_of_not_kept hkept, suffix_eq]
    rfl
  · rw [hhex]
    exact ⟨length_hexDigits 8 _, forall_hexDigits (by decide)⟩
  -- two names that were both kept would be two full names of one table
  · by_contra hboth
    rw [not_or, not_not, not_not, name_eq_fullName_iff, name_eq_fullName_iff] at hboth
    exact hother (eq_of_name_eq hboth.1 hboth.2 hname)

/-- A column of one character and two bytes, whose hash begins with a zero, and the column that is
    called like the end of its name. -/
theorem name_identifier_accent :
    name "t" "é" = String.ofList ("idx_t__".toList ++ '_' :: hashDigits "t" "é") ∧
      hashDigits "t" "é" = "0683e105".toList ∧
      name "t" "é" = "idx_t___0683e105" ∧
      name "t" "__0683e105" = name "t" "é" ∧
      (name "t" "é" ≠ fullName "t" "é" ∨ name "t" "__0683e105" ≠ fullName "t" "__0683e105") := by
  obtain ⟨-, -, -, -, -, hhashed, -, hshared⟩ := name_identifier "t" "é"
  have hname : name "t" "é" = "idx_t___0683e105" := by decide +kernel
  have hother : name "t" "__0683e105" = name "t" "é" := by
    rw [hname]
    decide +kernel
  have hne : name "t" "é" ≠ fullName "t" "é" := by
    rw [hname]
    decide +kernel
  have hsanitized : ((fullName "t" "é").toList.map sanitize).take 54 = "idx_t__".toList := by
    decide +kernel
  -- the hashed form is what the second column is called, so the names agree
  refine ⟨?_, by decide +kernel, hname, hother, hshared "__0683e105" (by decide) hother⟩
  rw [hhashed hne, hsanitized]

end RowPolicy.Index
