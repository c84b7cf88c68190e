import RowPolicy.Predicate.Basic
import RowPolicy.Proofs.Sql.Piece

namespace RowPolicy.Sql

/-!
# SQL expressions and how they are read

The part of SQL's expressions that predicates are written in.  From the loosest to the
tightest, the operators are `OR`, `AND`, `IS [NOT] NULL`, the comparisons, then `IN`,
`LIKE`, `ILIKE` and `@>`, then the sign of a number and the type cast; comparisons do not
chain.

* `Name`, `IsPath`, `IsColumn` — names, and the paths of names that SQL accepts;
* `Expr`, `Expr.pieces` — expressions, and how they are written;
* `Expr.level` — how tightly an expression holds its operands;
* `Expr.Fits` — the grammar: what may stand in each place of an expression;
* `Expr.Everywhere` — a property of an expression and all expressions in it;
* `Reads` — a text that is read as an expression.
-/

/-! ### Names -/

/-- A name as it is written. -/
inductive Name where
  /-- A name without quotes. -/
  | bare (s : String)
  /-- A name in double quotes. -/
  | quoted (s : String)
  /-- The `*` that stands for all names. -/
  | star
  deriving DecidableEq, Repr

/-- The words that are no names without quotes, in capitals: those that are reserved, as
    names of functions too, and `EXISTS`. -/
def keywords : List String :=
  ["ALL", "ANALYSE", "ANALYZE", "AND", "ANY", "ARRAY", "AS", "ASC", "ASYMMETRIC",
    "AUTHORIZATION", "BINARY", "BOTH", "CASE", "CAST", "CHECK", "COLLATE", "COLLATION",
    "COLUMN", "CONCURRENTLY", "CONSTRAINT", "CREATE", "CROSS", "CURRENT_CATALOG",
    "CURRENT_DATE", "CURRENT_ROLE", "CURRENT_SCHEMA", "CURRENT_TIME", "CURRENT_TIMESTAMP",
    "CURRENT_USER", "DEFAULT", "DEFERRABLE", "DESC", "DISTINCT", "DO", "ELSE", "END", "EXCEPT",
    "EXISTS", "FALSE", "FETCH", "FOR", "FOREIGN", "FREEZE", "FROM", "FULL", "GRANT", "GROUP",
    "HAVING", "ILIKE", "IN", "INITIALLY", "INNER", "INTERSECT", "INTO", "IS", "ISNULL", "JOIN",
    "LATERAL", "LEADING", "LEFT", "LIKE", "LIMIT", "LOCALTIME", "LOCALTIMESTAMP", "NATURAL",
    "NOT", "NOTNULL", "NULL", "OFFSET", "ON", "ONLY", "OR", "ORDER", "OUTER", "OVERLAPS",
    "PLACING", "PRIMARY", "REFERENCES", "RETURNING", "RIGHT", "SELECT", "SESSION_USER",
    "SIMILAR", "SOME", "SYMMETRIC", "SYSTEM_USER", "TABLE", "TABLESAMPLE", "THEN", "TO",
    "TRAILING", "TRUE", "UNION", "UNIQUE", "USER", "USING", "VARIADIC", "VERBOSE", "WHEN",
    "WHERE", "WINDOW", "WITH"]

/-- Whether a word is a keyword, in capitals or not. -/
def isKeyword (s : String) : Bool :=
  keywords.contains (String.ofList (s.toList.map Char.toUpper))

/-- Whether a word begins as numbers do. -/
def startsWithDigit (s : String) : Bool := s.toList.head?.any Char.isDigit

namespace Name

/-- The token of a name, where it stands at the beginning or, if `dotted`, behind a
    dot. -/
def atom (dotted : Bool) : Name → Atom
  | bare s => if dotted then .label s else .word s
  | quoted s => .name s
  | star => .op "*"

/-- Whether a name can stand at the beginning or, if `dotted`, behind a dot, where
    keywords are names like others. -/
def stands (dotted : Bool) : Name → Bool
  | bare s => isPlainName s && !startsWithDigit s && (dotted || !isKeyword s)
  | quoted s => s != ""
  | star => false

end Name

/-- A path of names as it is written, with dots between the names. -/
def pathPieces (dotted : Bool) : List Name → List Piece
  | [] => []
  | n :: rest => .atom (n.atom dotted) :: rest.flatMap fun m => [.atom .dot, .atom (m.atom true)]

/-- A path that names one thing. -/
def IsPath : List Name → Prop
  | [] => False
  | n :: rest => n.stands false ∧ ∀ m ∈ rest, m.stands true

/-- A path that names a column, or all columns of a table. -/
def IsColumn (path : List Name) : Prop :=
  IsPath path ∨ ∃ table, IsPath table ∧ path = table ++ [.star]

/-- A table in a query, with its alias if it has one. -/
structure TableName where
  path : List Name
  aliasName : Option Name
  deriving DecidableEq, Repr

namespace TableName

def pieces (t : TableName) : List Piece :=
  pathPieces false t.path ++ (t.aliasName.map fun a => .atom (a.atom false)).toList

def Fits (t : TableName) : Prop := IsPath t.path ∧ ∀ a ∈ t.aliasName, a.stands false

end TableName

/-! ### Expressions -/

/-- An expression, or a query or a source of rows within one. -/
inductive Expr where
  /-- A word that is a value. -/
  | constant (word : String)
  | number (negative : Bool) (whole : String) (fraction : Option String)
  | text (s : String)
  | column (path : List Name)
  /-- The `*` that stands for all columns. -/
  | all
  | call (function : List Name) (args : List Expr)
  | cast (e : Expr) (type : String)
  | array (items : List Expr)
  | arrayOf (query : Expr)
  | exists (query : Expr)
  | paren (e : Expr)
  | contains (l r : Expr)
  | matches (op : Matching) (l r : Expr)
  | inList (l : Expr) (items : List Expr)
  | inQuery (l query : Expr)
  | compare (op : Comparison) (l r : Expr)
  | null (test : NullTest) (e : Expr)
  /-- Members under one connective, without parentheses around them. -/
  | chain (op : Connective) (members : List Expr)
  | table (t : TableName)
  | join (kind : JoinKind) (l r : TableName) (on : Expr)
  | select (columns : List Expr) (source : Expr) (filter : Option Expr)

/-- The words of a null test. -/
def nullWords : NullTest → List String
  | .isNull => ["IS", "NULL"]
  | .isNotNull => ["IS", "NOT", "NULL"]

namespace Piece

def word (s : String) : Piece := .atom (.word s)

def op (s : String) : Piece := .atom (.op s)

/-- Items with commas between them. -/
def listed (items : List (List Piece)) : List Piece := [.atom .comma].intercalate items

end Piece

namespace Expr

open Piece (word op listed)

mutual

/-- An expression as it is written. -/
def pieces : Expr → List Piece
  | constant w => [word w]
  | number negative whole fraction =>
    (if negative then [op "-"] else []) ++
      word whole :: (fraction.toList.flatMap fun f => [.atom .dot, .atom (.label f)])
  | text s => [.atom (.text s)]
  | column path => pathPieces false path
  | all => [op "*"]
  | call function args => pathPieces false function ++ [.brackets .round (listed (piecesOf args))]
  | cast e type => e.pieces ++ [op "::", word type]
  | array items => [word "ARRAY", .brackets .square (listed (piecesOf items))]
  | arrayOf query => [word "ARRAY", .brackets .round query.pieces]
  | .exists query => [word "EXISTS", .brackets .round query.pieces]
  | paren e => [.brackets .round e.pieces]
  | contains l r => l.pieces ++ op "@>" :: r.pieces
  | .matches m l r => l.pieces ++ word m.sql :: r.pieces
  | inList l items => l.pieces ++ [word "IN", .brackets .round (listed (piecesOf items))]
  | inQuery l query => l.pieces ++ [word "IN", .brackets .round query.pieces]
  | compare c l r => l.pieces ++ op c.sql :: r.pieces
  | null test e => e.pieces ++ (nullWords test).map word
  | chain c members => [word c.sql].intercalate (piecesOf members)
  | table t => t.pieces
  | join kind l r on =>
    l.pieces ++ word kind.sql :: word "JOIN" :: (r.pieces ++ word "ON" :: on.pieces)
  | select columns source filter =>
    word "SELECT" :: (listed (piecesOf columns) ++
      word "FROM" :: (source.pieces ++ filterPieces filter))

/-- Expressions as they are written, one by one. -/
def piecesOf : List Expr → List (List Piece)
  | [] => []
  | e :: es => e.pieces :: piecesOf es

/-- The `WHERE` clause of a query, if it has one. -/
def filterPieces : Option Expr → List Piece
  | none => []
  | some e => word "WHERE" :: e.pieces

end

/-- Expressions in a row are written one by one. -/
theorem piecesOf_eq_map (es : List Expr) : piecesOf es = es.map pieces := by
  induction es with
  | nil => rfl
  | cons e es ih => rw [piecesOf, ih, List.map_cons]

/-! ### The grammar -/

/-- How tightly an expression holds its operands; 0 for what is no value. -/
def level : Expr → Nat
  | chain .or _ => 1
  | chain .and _ => 2
  | null .. => 3
  | compare .. => 4
  | contains .. | .matches .. | inList .. | inQuery .. => 5
  | cast .. | number true .. => 6
  | table _ | join .. | select .. => 0
  | _ => 7

/-- A value that holds its operands at least as tightly as a level says. -/
def Binds (n : Nat) (e : Expr) : Prop := n ≤ e.level ∧ e ≠ all

/-- A source of rows. -/
def IsSource : Expr → Prop
  | table _ | join .. => True
  | _ => False

/-- A query. -/
def IsQuery : Expr → Prop
  | select .. => True
  | _ => False

/-- The words that are values. -/
def constants : List String := ["TRUE", "FALSE", "NULL", "true", "current_user"]

/-- A run of digits. -/
def IsDigits (s : String) : Prop := s ≠ "" ∧ ∀ c ∈ s.toList, c.isDigit

/-- The level of the operands of a connective. -/
def memberLevel : Connective → Nat
  | .or => 2
  | .and => 3

/-- The grammar: what may stand in the places of an expression. -/
def Fits : Expr → Prop
  | constant w => w ∈ constants
  | number _ whole fraction => IsDigits whole ∧ ∀ f ∈ fraction, IsDigits f
  | column path => IsColumn path
  | call function args => IsPath function ∧ (args = [all] ∨ ∀ a ∈ args, a.Binds 1)
  | cast e type => e.Binds 7 ∧ (Name.bare type).stands false
  | array items => ∀ e ∈ items, e.Binds 1
  | arrayOf query | .exists query => query.IsQuery
  | paren e => e.Binds 1
  | contains l r | .matches _ l r => l.Binds 6 ∧ r.Binds 6
  | inList l items => l.Binds 6 ∧ items ≠ [] ∧ ∀ e ∈ items, e.Binds 1
  | inQuery l query => l.Binds 6 ∧ query.IsQuery
  | compare _ l r => l.Binds 5 ∧ r.Binds 5
  | null _ e => e.Binds 4
  | chain op members => 2 ≤ members.length ∧ ∀ e ∈ members, e.Binds (memberLevel op)
  | table t => t.Fits
  | join _ l r on => l.Fits ∧ r.Fits ∧ on.Binds 1
  | select columns source filter =>
    columns ≠ [] ∧ (∀ e ∈ columns, 1 ≤ e.level) ∧ source.IsSource ∧ ∀ e ∈ filter, e.Binds 1
  | text _ | all => True

/-- The expressions that stand directly in an expression. -/
def children : Expr → List Expr
  | call _ args => args
  | cast e _ | arrayOf e | .exists e | paren e | null _ e | join _ _ _ e => [e]
  | array items => items
  | contains l r | .matches _ l r | inQuery l r | compare _ l r => [l, r]
  | inList l items => l :: items
  | chain _ members => members
  | select columns source filter => source :: (filter.toList ++ columns)
  | _ => []

/-- A property of an expression and of all expressions in it. -/
inductive Everywhere (P : Expr → Prop) : Expr → Prop
  | intro {e : Expr} : P e → (∀ c ∈ e.children, Everywhere P c) → Everywhere P e

/-- What holds everywhere in an expression holds of it. -/
theorem Everywhere.here {P : Expr → Prop} {e : Expr} (h : e.Everywhere P) : P e := by
  cases h with
  | intro hp _ => exact hp

/-- What holds everywhere in an expression holds everywhere in its parts. -/
theorem Everywhere.child {P : Expr → Prop} {e c : Expr} (h : e.Everywhere P)
    (hc : c ∈ e.children) : c.Everywhere P := by
  cases h with
  | intro _ hchildren => exact hchildren c hc

end Expr

/-! ### Reading -/

/-- A text that is read as an expression: its tokens are those of the expression, and
    the grammar is kept everywhere in it. -/
def Reads (text : String) (e : Expr) : Prop :=
  tokens? text = some (Piece.tokensOf e.pieces) ∧ e.Binds 1 ∧ e.Everywhere Expr.Fits

end RowPolicy.Sql
