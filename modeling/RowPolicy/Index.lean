import RowPolicy.Predicate.Sql

namespace RowPolicy

/-!
# Indexes — columns that a predicate looks rows up by

The predicates of a policy are evaluated for every row, so the columns that
they compare for equality or look up in a collection deserve an index.

* `Index.columns` — those columns of a policy's predicates;
* `Index.name` — the name of an index, a bare identifier;
* `Index.statements` — the statements that create the indexes.
-/

namespace Index

/-! ### Columns -/

/-- A column added to the candidates, if it is a bare name and not there yet.
    A column of another table and `*` are no candidates. -/
def addColumn (columns : List String) (reference : String) : List String :=
  let name := Reference.columnName reference
  if (Reference.qualifier? reference).isSome ∨ name = "" ∨ name = "*" then columns
  else if name ∈ columns then columns
  else columns ++ [name]

mutual

/-- The candidates so far and those of a predicate: columns compared for
    equality, looked up in a collection, or linked to a membership table, also
    in groups. -/
def walk (columns : List String) : Predicate → List String
  | .compare column .eq _ => addColumn columns column
  | .member column .inside _ => addColumn columns column
  | .group _ members => walks columns members
  | .helper name params =>
    if name = Helper.isMemberOf then
      match textParam? params "local_key" with
      | some key => addColumn columns key
      | none => columns
    else columns
  | _ => columns

/-- The candidates so far and those of some predicates. -/
def walks (columns : List String) : List Predicate → List String
  | [] => columns
  | p :: ps => walks (walk columns p) ps

end

/-- The columns to index for a `USING` and a `WITH CHECK` predicate, each once,
    in the order of their first appearance. -/
def columns (usingExpr checkExpr : Option Predicate) : List String :=
  walks [] (usingExpr.toList ++ checkExpr.toList)

/-! ### Names -/

/-- The length in bytes that the database keeps of an identifier. -/
def maxLength : Nat := 63

/-- The length of the suffix that tells cut or altered names apart. -/
def suffixLength : Nat := 9

/-- One step of the hash: a byte is mixed in, then the value is multiplied,
    modulo `2 ^ 32`. -/
def hashStep (hash : UInt32) (byte : UInt8) : UInt32 :=
  (hash ^^^ byte.toUInt32) * 0x01000193

/-- The 32-bit FNV-1a hash of some bytes. -/
def hashBytes (bytes : List UInt8) : UInt32 := bytes.foldl hashStep 0x811C9DC5

/-- The hash of a table and a column, with a zero byte between them. -/
def nameHash (table column : String) : UInt32 :=
  hashBytes (table.toUTF8.toList ++ 0 :: column.toUTF8.toList)

/-- The last `width` hexadecimal digits of a number. -/
def hexDigits : Nat → Nat → List Char
  | 0, _ => []
  | width + 1, n => hexDigits width (n / 16) ++ [Nat.digitChar (n % 16)]

/-- A character, or `_` in place of one that needs quotes. -/
def sanitize (c : Char) : Char := if isWordChar c then c else '_'

/-- The name of the index on a column: `idx_<table>_<column>` if that is a bare
    identifier of admissible length, else the start of its sanitised form and a
    hash of both names. -/
def name (table column : String) : String :=
  let raw := ("idx_" ++ table ++ "_" ++ column).toList
  let bare := raw.map sanitize
  if bare = raw ∧ bare.length ≤ maxLength then String.ofList raw
  else String.ofList (bare.take (maxLength - suffixLength) ++
    '_' :: hexDigits 8 (nameHash table column).toNat)

/-! ### Statements -/

/-- The statement that creates the index on a column. -/
def statement (table column : String) : String :=
  "CREATE INDEX IF NOT EXISTS " ++ name table column ++ " ON " ++ Reference.quoted table ++
    " (" ++ quoteIdentifier column ++ ")"

/-- The statements for some columns, without terminators. -/
def statements (table : String) (columns : List String) : List String :=
  columns.map (statement table)

example : name "posts" "owner_id" = "idx_posts_owner_id" := by decide +kernel

end Index

end RowPolicy
