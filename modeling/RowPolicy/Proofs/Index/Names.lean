import RowPolicy.Proofs.Index.Columns
import RowPolicy.Proofs.Index.Hash
import RowPolicy.Proofs.Manifest.Script
import RowPolicy.Proofs.Policy.Names

namespace RowPolicy

open Sql

/-!
# The names of indexes, as they are read

The name of an index is written without quotes, so it is read in lower case.  Where a column
keeps its name in that of the index, its capitals are lost; where it does not, the name is the
start of what it would have been, with a hash, and that is a name that another column may keep:

* `Index.Kept`, `Index.name_of_kept`, `Index.name_of_not_kept` — the two forms of a name;
* `Index.nameIn?` — the name that is read in a statement that creates an index;
* `Index.Clash`, `Index.folded_name_eq_iff` — when the names of two columns are read as one;
* `Index.exists_imitates` — a column without a name of its own has another that imitates it;
* `Index.names_nodup_iff` — when the indexes of a policy have different names.
-/

namespace Index

/-! ### The two forms of a name -/

/-- The name of an index in which nothing is altered and nothing is cut. -/
def fullName (table column : String) : String := "idx_" ++ table ++ "_" ++ column

/-- A column keeps its name in an index if nothing in the full name needs quotes and there is
    room for all of it. -/
def Kept (table column : String) : Prop :=
  (∀ c ∈ (fullName table column).toList, isWordChar c = true) ∧
    (fullName table column).length ≤ maxLength

/-- The start of the name of an index in which a column does not keep its name. -/
def beginning (table column : String) : List Char :=
  ((fullName table column).toList.map sanitize).take (maxLength - suffixLength)

/-- The end of such a name. -/
def suffix (table column : String) : List Char :=
  '_' :: hexDigits 8 (nameHash table column).toNat

/-- What goes behind a name that is cut has a fixed length. -/
theorem length_suffix (table column : String) : (suffix table column).length = suffixLength := by
  rw [suffix, List.length_cons, length_hexDigits]
  rfl

/-- Sanitising leaves a text as it is exactly if there is nothing to replace. -/
theorem map_sanitize_eq_self {s : List Char} :
    s.map sanitize = s ↔ ∀ c ∈ s, isWordChar c = true := by
  have hself (c : Char) : sanitize c = c ↔ isWordChar c = true := by
    refine ⟨fun h => ?_, fun h => if_pos h⟩
    rw [← h]
    exact isWordChar_sanitize c
  induction s with
  | nil => simp
  | cons c s ih =>
    rw [List.map_cons, List.cons.injEq, List.forall_mem_cons]
    exact and_congr (hself c) ih

/-- A name is kept if sanitising changes nothing and it is short enough then. -/
theorem kept_iff {table column : String} :
    Kept table column ↔
      (fullName table column).toList.map sanitize = (fullName table column).toList ∧
        ((fullName table column).toList.map sanitize).length ≤ maxLength := by
  rw [map_sanitize_eq_self, List.length_map, String.length_toList, Kept]

instance (table column : String) : Decidable (Kept table column) := decidable_of_iff' _ kept_iff

/-- A name that is kept is the full name. -/
theorem name_of_kept {table column : String} (h : Kept table column) :
    name table column = fullName table column := by
  rw [kept_iff] at h
  exact (if_pos h).trans String.ofList_toList

/-- Any other name is its beginning with the hash behind it. -/
theorem name_of_not_kept {table column : String} (h : ¬ Kept table column) :
    name table column = String.ofList (beginning table column ++ suffix table column) := by
  rw [kept_iff] at h
  exact if_neg h

/-! ### Names in statements -/

/-- The words that a statement begins with if it creates an index. -/
def leadingWords : List Token :=
  ["CREATE", "INDEX", "IF", "NOT", "EXISTS"].map fun w => .atom (.word w)

/-- The name that is read in a statement that creates an index. -/
def nameIn? (statement : String) : Option String :=
  (tokens? statement).bind fun ts =>
    if leadingWords <+: ts then
      match ts.drop leadingWords.length with
      | .atom a :: _ => a.identifier?
      | _ => none
    else none

/-- The name of an index begins with a letter, so it is an identifier. -/
theorem identifier_name (table column : String) :
    (Atom.word (name table column)).identifier? = some (folded (name table column)) := by
  -- each name begins with `idx`, so it is no number
  have hhead : (name table column).toList.head? = some 'i' := by
    by_cases hkept : Kept table column
    · rw [name_of_kept hkept]
      simp [fullName]
    · rw [name_of_not_kept hkept]
      simp [beginning, fullName, sanitize, maxLength, suffixLength]
      decide
  have hdigit : startsWithDigit (name table column) = false := by
    rw [startsWithDigit, hhead]
    decide
  exact if_neg (Bool.not_eq_true _ ▸ hdigit)

/-- A statement that creates an index gives it the name of the index, in lower case. -/
theorem nameIn_statement (table column : String) :
    nameIn? (statement table column) = some (folded (name table column)) := by
  -- the words around the names, and then the statement from left to right
  have hlead : SpellsAll "CREATE INDEX IF NOT EXISTS " leadingWords := rfl
  have hon : SpellsAll " ON " [.atom (.word "ON")] := rfl
  have hopen : SpellsAll " (" [.edge (.opening .round)] := rfl
  have hclose : SpellsAll ")" [.edge (.closing .round)] := rfl
  have hname := hlead.append_spells (spells_plain false (isPlainName_name table column))
  have htable := (hname.append_all hon (parted_of_head rfl)).append_spells (spells_quoted table)
  have hcolumn := (htable.append_all hopen (parted_of_head rfl)).append_spells
    (spells_quoteIdentifier false column)
  have htokens : tokens? (statement table column) = some _ :=
    (hcolumn.append_all hclose (parted_of_head rfl)).spells.tokens?
  simp only [List.append_assoc] at htokens
  rw [nameIn?, htokens, Option.bind_some, if_pos (List.prefix_append _ _), List.drop_left]
  exact identifier_name table column

/-! ### Names that are read as one -/

/-- A column that keeps its name imitates another if the full name of its index is read as the
    name that the index of the other gets instead of its own. -/
def Imitates (table c d : String) : Prop :=
  Kept table c ∧ ¬ Kept table d ∧
    folded (fullName table c) =
      folded (String.ofList (beginning table d)) ++ String.ofList (suffix table d)

/-- The ways in which the indexes on two columns of a table come to have one name. -/
inductive Clash (table c d : String) : Prop
  /-- Both keep their names, which differ in their capitals at most. -/
  | kept (hc : Kept table c) (hd : Kept table d) (hcolumns : folded c = folded d)
  /-- Neither keeps its name; the names begin alike, and the hashes are the same. -/
  | hashed (hc : ¬ Kept table c) (hd : ¬ Kept table d)
      (hbeginning : folded (String.ofList (beginning table c)) =
        folded (String.ofList (beginning table d)))
      (hhash : nameHash table c = nameHash table d)
  | imitating (h : Imitates table c d)
  | imitated (h : Imitates table d c)

/-- Case is folded character by character. -/
theorem folded_append (a b : String) : folded (a ++ b) = folded a ++ folded b := by
  rw [folded, String.toList_append, List.map_append, String.ofList_append]
  rfl

/-- The digits of a hash are in lower case. -/
theorem folded_suffix (table column : String) :
    folded (String.ofList (suffix table column)) = String.ofList (suffix table column) := by
  rw [folded_eq_self, String.toList_ofList, suffix, List.forall_mem_cons]
  exact ⟨by decide, forall_hexDigits (by decide)⟩

/-- Only the column tells the full names on one table apart. -/
theorem folded_fullName (table column : String) :
    folded (fullName table column) = folded ("idx_" ++ table ++ "_") ++ folded column := by
  rw [fullName, folded_append]

/-- Folding does not touch the hash of a name. -/
theorem folded_name_of_not_kept {table column : String} (h : ¬ Kept table column) :
    folded (name table column) =
      folded (String.ofList (beginning table column)) ++ String.ofList (suffix table column) := by
  rw [name_of_not_kept h, String.ofList_append, folded_append, folded_suffix]

/-- The end of a name tells where it begins, and which hash it stands for. -/
theorem append_suffix_inj {table c d : String} {a b : String}
    (h : a ++ String.ofList (suffix table c) = b ++ String.ofList (suffix table d)) :
    a = b ∧ nameHash table c = nameHash table d := by
  have hlists := congrArg String.toList h
  rw [String.toList_append, String.toList_append, String.toList_ofList,
    String.toList_ofList] at hlists
  have hlength : (suffix table c).length = (suffix table d).length := by
    rw [length_suffix, length_suffix]
  obtain ⟨hfront, hsuffix⟩ := List.append_inj' hlists hlength
  exact ⟨String.toList_inj.mp hfront, hexDigits_injective (List.cons.inj hsuffix).2⟩

/-- **Clashes.** The names of two columns are read as one in just these ways. -/
theorem folded_name_eq_iff (table c d : String) :
    folded (name table c) = folded (name table d) ↔ Clash table c d := by
  constructor
  · intro h
    -- either name may be kept or hashed, which gives the four ways to clash
    by_cases hc : Kept table c <;> by_cases hd : Kept table d
    · rw [name_of_kept hc, name_of_kept hd, folded_fullName, folded_fullName] at h
      exact .kept hc hd (String.append_right_inj _ |>.mp h)
    · rw [name_of_kept hc, folded_name_of_not_kept hd] at h
      exact .imitating ⟨hc, hd, h⟩
    · rw [folded_name_of_not_kept hc, name_of_kept hd] at h
      exact .imitated ⟨hd, hc, h.symm⟩
    · rw [folded_name_of_not_kept hc, folded_name_of_not_kept hd] at h
      obtain ⟨hbeginning, hhash⟩ := append_suffix_inj h
      exact .hashed hc hd hbeginning hhash
  -- the other way round, each kind of clash gives both names one form
  · rintro (⟨hc, hd, hcolumns⟩ | ⟨hc, hd, hbeginning, hhash⟩ | ⟨hc, hd, h⟩ | ⟨hd, hc, h⟩)
    · rw [name_of_kept hc, name_of_kept hd, folded_fullName, folded_fullName, hcolumns]
    · rw [folded_name_of_not_kept hc, folded_name_of_not_kept hd, hbeginning, suffix, suffix, hhash]
    · rw [name_of_kept hc, folded_name_of_not_kept hd, h]
    · rw [folded_name_of_not_kept hc, name_of_kept hd, h]

/-- Where there is room behind the table, each column that does not keep its name is imitated by
    the column that is called like the rest of it. -/
theorem exists_imitates {table d : String} (htable : ∀ c ∈ table.toList, isWordChar c = true)
    (hroom : ("idx_" ++ table ++ "_").length ≤ maxLength - suffixLength) (hd : ¬ Kept table d) :
    ∃ c, Imitates table c d := by
  have hlead : ∀ c ∈ ("idx_" ++ table ++ "_").toList, isWordChar c = true := by
    simp only [String.toList_append, List.forall_mem_append]
    exact ⟨⟨List.all_eq_true.mp rfl, htable⟩, List.all_eq_true.mp rfl⟩
  -- the beginning of the hashed name leaves room for the table
  obtain ⟨rest, hrest⟩ : ∃ rest, beginning table d = ("idx_" ++ table ++ "_").toList ++ rest := by
    rw [beginning, fullName, String.toList_append, List.map_append, map_sanitize_eq_self.mpr hlead,
      List.take_append, List.take_of_length_le (by rwa [String.length_toList])]
    exact ⟨_, rfl⟩
  -- a column that is called like the rest of the hashed name imitates it
  have hname : fullName table (String.ofList (rest ++ suffix table d)) =
      String.ofList (beginning table d) ++ String.ofList (suffix table d) := by
    rw [fullName, hrest, String.ofList_append, String.ofList_append, String.ofList_toList]
    simp only [String.append_assoc]
  refine ⟨String.ofList (rest ++ suffix table d), ⟨?_, ?_⟩, hd, ?_⟩
  · rw [hname, String.toList_append, String.toList_ofList, String.toList_ofList,
      List.forall_mem_append, suffix, List.forall_mem_cons]
    refine ⟨fun c hc => ?_, by decide, isWordChar_hexDigits⟩
    obtain ⟨b, -, rfl⟩ := List.mem_map.mp (List.mem_of_mem_take hc)
    exact isWordChar_sanitize b
  · have hbeginning : (beginning table d).length ≤ maxLength - suffixLength :=
      List.length_take_le _ _
    rw [hname, String.length_append, String.length_ofList, String.length_ofList, length_suffix]
    have hfits : suffixLength ≤ maxLength := by decide
    omega
  · rw [hname, folded_append, folded_suffix]

/-- A column does not imitate itself. -/
theorem Imitates.ne {table c d : String} (h : Imitates table c d) : c ≠ d := by
  rintro rfl
  exact h.2.1 h.1

/-- Columns that differ in one byte do not clash unless one of them keeps its name. -/
theorem not_clash_of_byte {table c d : String} (hc : ¬ Kept table c) (hd : ¬ Kept table d)
    {before after : List UInt8} {byte byte' : UInt8} (hne : byte ≠ byte')
    (hcbytes : c.toUTF8.toList = before ++ byte :: after)
    (hdbytes : d.toUTF8.toList = before ++ byte' :: after) : ¬ Clash table c d := by
  rintro (⟨hkept, -, -⟩ | ⟨-, -, -, hhash⟩ | ⟨hkept, -, -⟩ | ⟨hkept, -, -⟩)
  · exact hc hkept
  · exact nameHash_ne table hcbytes hdbytes hne hhash
  · exact hc hkept
  · exact hd hkept

/-! ### The indexes of a policy -/

/-- No column is indexed twice. -/
theorem columns_nodup (usingExpr checkExpr : Option Predicate) :
    (columns usingExpr checkExpr).Nodup := by
  rw [columns, walks_eq]
  exact nodup_foldl_addTable List.nodup_nil _

/-- The statements for the indexes come first, and each of them has the name of its index. -/
theorem parts_sql {policy : Policy} {comments : Bool} {text : String}
    (h : policy.sql ⟨true, comments⟩ = .ok text) :
    ∃ rest, policy.sql ⟨false, comments⟩ = .ok rest ∧
      parts text.toList = statements policy.table policy.indexColumns ++ parts rest.toList := by
  obtain ⟨hclause, rfl⟩ := Policy.sql_eq_ok.mp h
  refine ⟨_, Policy.sql_eq_ok.mpr ⟨hclause, rfl⟩, ?_⟩
  rw [Policy.text, Policy.text, if_pos rfl, if_neg Bool.false_ne_true, String.append_assoc,
    String.append_assoc, String.empty_append, String.toList_append,
    Policy.parts_indexStatements]

/-- The names of the indexes can be read off their statements. -/
theorem names_statements (table : String) (columns : List String) :
    (statements table columns).map nameIn? = columns.map fun c => some (folded (name table c)) := by
  simp only [statements, List.map_map, Function.comp_def, nameIn_statement]

/-- **Names of indexes.** The statements that create the indexes of a policy are the first in its
    text, whatever stands in its predicates.  The names that are read in them are different if and
    only if no two of the columns clash.  Two columns clash if and only if the names of their
    indexes are read as one: they are the same up to capitals, or they have one hash and begin
    alike, or one is called like the other with its hash, as some column can be wherever there is
    room behind the table.  Columns that do not keep their names do not clash if they differ in one
    byte alone. -/
theorem names_nodup_iff (policy : Policy) :
    let table := policy.table
    let names := (statements table policy.indexColumns).map nameIn?
    (∀ (comments : Bool) (text : String), policy.sql ⟨true, comments⟩ = .ok text →
      ∃ rest, policy.sql ⟨false, comments⟩ = .ok rest ∧
        parts text.toList = statements table policy.indexColumns ++ parts rest.toList) ∧
      names = (policy.indexColumns.map fun c => some (folded (name table c))) ∧
      policy.indexColumns.Nodup ∧
      (names.Nodup ↔ policy.indexColumns.Pairwise fun c d => ¬ Clash table c d) ∧
      (∀ c d, folded (name table c) = folded (name table d) ↔ Clash table c d) ∧
      (∀ d, (∀ c ∈ table.toList, isWordChar c = true) →
        ("idx_" ++ table ++ "_").length ≤ maxLength - suffixLength → ¬ Kept table d →
          ∃ c, c ≠ d ∧ Clash table c d) ∧
      ∀ c d, ¬ Kept table c → ¬ Kept table d →
        ∀ before after byte byte', byte ≠ byte' → c.toUTF8.toList = before ++ byte :: after →
          d.toUTF8.toList = before ++ byte' :: after → ¬ Clash table c d := by
  intro table names
  refine ⟨fun comments text h => parts_sql h, names_statements table policy.indexColumns,
    columns_nodup policy.usingExpr policy.checkExpr, ?_, folded_name_eq_iff table,
    fun d htable hroom hd => ?_, fun c d hc hd before after byte byte' hne hcbytes hdbytes =>
      not_clash_of_byte hc hd hne hcbytes hdbytes⟩
  -- names that are told apart pairwise are names without a clash
  · rw [show names = _ from names_statements table policy.indexColumns, List.Nodup,
      List.pairwise_map]
    simp only [ne_eq, Option.some.injEq, folded_name_eq_iff]
  · obtain ⟨c, hc⟩ := exists_imitates htable hroom hd
    exact ⟨c, hc.ne, .imitating hc⟩

/-- A column with a blank in it: beside one with an underscore there, beside one with a dash, and
    beside one that is called like it with its hash. -/
theorem names_nodup_iff_blank :
    let policy : Policy :=
      { Policy.start "p" "t" .select with
        usingExpr :=
          some (.group .and [.compare "Owner Id" .eq .null, .compare "Owner_Id" .eq .null]) }
    (∃ text rest, policy.sql ⟨true, false⟩ = .ok text ∧ policy.sql ⟨false, false⟩ = .ok rest ∧
        parts text.toList = statements "t" ["Owner Id", "Owner_Id"] ++ parts rest.toList) ∧
      ((statements "t" ["Owner Id", "Owner_Id"]).map nameIn?).Nodup ∧
      (∃ c, c ≠ "Owner Id" ∧ Clash "t" c "Owner Id") ∧ ¬ Clash "t" "Owner Id" "Owner-Id" := by
  intro policy
  obtain ⟨htext, -, -, hnames, hclash, himitated, hbyte⟩ := names_nodup_iff policy
  have hcolumns : policy.indexColumns = ["Owner Id", "Owner_Id"] := by decide +kernel
  have htable : ∀ c ∈ "t".toList, isWordChar c = true := List.all_eq_true.mp rfl
  have hblank : ¬ Kept "t" "Owner Id" := by decide +kernel
  have hdash : ¬ Kept "t" "Owner-Id" := by decide +kernel
  -- the indexes are the only difference between the two texts
  refine ⟨?_, ?_, ?_, ?_⟩
  · have hsql : policy.sql ⟨true, false⟩ = .ok (policy.text ⟨true, false⟩) := rfl
    obtain ⟨rest, hrest, hparts⟩ := htext false _ hsql
    rw [hcolumns] at hparts
    exact ⟨_, rest, hsql, hrest, hparts⟩
  · rw [← hcolumns]
    refine hnames.mpr ?_
    rw [hcolumns, List.pairwise_pair, ← hclash]
    decide +kernel
  · exact himitated "Owner Id" htable (by decide) hblank
  · exact hbyte _ _ hblank hdash "Owner".toUTF8.toList "Id".toUTF8.toList ' '.toUInt8
      '-'.toUInt8 (by decide) (by decide +kernel) (by decide +kernel)

/-- Two columns that differ in a capital have one index. -/
theorem names_capital :
    let policy : Policy :=
      { Policy.start "p" "t" .select with
        usingExpr := some (.group .and [.compare "A" .eq .null, .compare "a" .eq .null]) }
    let names := (statements policy.table policy.indexColumns).map nameIn?
    (∃ text, policy.sql ⟨true, false⟩ = .ok text) ∧ policy.indexColumns = ["A", "a"] ∧
      names = [some "idx_t_a", some "idx_t_a"] ∧ ¬ names.Nodup ∧
      ¬ ∀ table c d, c ≠ d → folded (name table c) ≠ folded (name table d) := by
  intro policy names
  have hcolumns : policy.indexColumns = ["A", "a"] := by decide +kernel
  have hnames : names = [some "idx_t_a", some "idx_t_a"] := by
    show (statements "t" policy.indexColumns).map nameIn? = _
    rw [hcolumns, names_statements]
    decide +kernel
  -- both columns are bare, and folding case makes them one name
  refine ⟨⟨_, rfl⟩, hcolumns, hnames, ?_, fun h => ?_⟩
  · rw [hnames]
    decide
  · exact h "t" "A" "a" (by decide) (by decide +kernel)

end Index

end RowPolicy
