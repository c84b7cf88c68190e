import RowPolicy.Instant.Basic

namespace RowPolicy

/-!
# Predicates — conditions on the rows of a table

A policy admits a row if a predicate holds for it.  Predicates, the operands
they compare with and the subqueries they look into refer to each other:

* `Predicate` — a comparison, a pattern, a membership, a null test, a group
  under one connective, a named helper, a function call or a context value;
* `Operand` — what a column is compared with;
* `Source` — where the values of a membership come from;
* `Subquery`, `Join` — a `SELECT` with at most one join.

Columns and tables are references, kept as written.
-/

/-! ### Operators -/

/-- How a column is compared with an operand. -/
inductive Comparison where
  | eq
  | ne
  | gt
  | ge
  | lt
  | le
  deriving DecidableEq, Repr

/-- The operator of a comparison. -/
def Comparison.sql : Comparison → String
  | eq => "="
  | ne => "<>"
  | gt => ">"
  | ge => ">="
  | lt => "<"
  | le => "<="

/-- Whether the case of letters counts when a pattern is matched. -/
inductive Matching where
  | like
  | ilike
  deriving DecidableEq, Repr

/-- The keyword of a pattern match. -/
def Matching.sql : Matching → String
  | like => "LIKE"
  | ilike => "ILIKE"

/-- How a column relates to a collection of values. -/
inductive Membership where
  /-- The value of the column is in the collection. -/
  | inside
  /-- The array in the column contains the collection. -/
  | contains
  deriving DecidableEq, Repr

/-- A test for the null value. -/
inductive NullTest where
  | isNull
  | isNotNull
  deriving DecidableEq, Repr

/-- The keywords of a null test. -/
def NullTest.sql : NullTest → String
  | isNull => "IS NULL"
  | isNotNull => "IS NOT NULL"

/-- What holds a group of predicates together. -/
inductive Connective where
  | and
  | or
  deriving DecidableEq, Repr

/-- The keyword of a connective. -/
def Connective.sql : Connective → String
  | and => "AND"
  | or => "OR"

/-! ### Context values -/

/-- The type a setting of the session is cast to. -/
inductive Cast where
  | text
  | integer
  | uuid
  | boolean
  | timestamp
  deriving DecidableEq, Repr

namespace Cast

/-- The name of the type. -/
def sql : Cast → String
  | text => "text"
  | integer => "integer"
  | uuid => "uuid"
  | boolean => "boolean"
  | timestamp => "timestamp"

/-- All types, in the order in which messages list them. -/
def every : List Cast := [text, integer, uuid, boolean, timestamp]

end Cast

/-- A value that depends on who runs the command. -/
inductive Context where
  /-- The id of the authenticated user. -/
  | authUid
  /-- The current database role. -/
  | currentUser
  /-- A setting of the session, null if it is not set. -/
  | setting (key : String) (cast : Cast)
  deriving DecidableEq, Repr

/-! ### Predicates -/

/-- Which unmatched rows a join keeps. -/
inductive JoinKind where
  | inner
  | left
  | right
  | full
  deriving DecidableEq, Repr

namespace JoinKind

/-- The keyword of a join. -/
def sql : JoinKind → String
  | inner => "INNER"
  | left => "LEFT"
  | right => "RIGHT"
  | full => "FULL"

/-- All kinds of join, in the order in which messages list them. -/
def every : List JoinKind := [inner, left, right, full]

end JoinKind

mutual

/-- What a column is compared with. -/
inductive Operand where
  | null
  | bool (b : Bool)
  | int (n : Int64)
  | float (x : Float)
  | text (s : String)
  | instant (t : Instant)
  | array (items : List Operand)
  /-- SQL that is taken over as it is; its author answers for it. -/
  | raw (sql : String)
  | predicate (p : Predicate)

/-- Where the values of a membership come from. -/
inductive Source where
  | values (items : List Operand)
  | subquery (q : Subquery)

/-- An argument of a function call. -/
inductive Argument where
  | column (reference : String)
  | predicate (p : Predicate)

/-- A condition on a row. -/
inductive Predicate where
  | compare (column : String) (op : Comparison) (operand : Operand)
  | pattern (column : String) (op : Matching) (pattern : String)
  | member (column : String) (op : Membership) (source : Source)
  | null (column : String) (test : NullTest)
  | group (op : Connective) (members : List Predicate)
  /-- A ready-made predicate, known by its name, with named parameters. -/
  | helper (name : String) (params : List (String × Operand))
  | call (name : String) (args : List Argument)
  | context (c : Context)

/-- A join of a subquery. -/
structure Join where
  kind : JoinKind
  table : String
  aliasName : Option String
  on : Predicate

/-- A `SELECT` that supplies the values of a membership.  No columns stand for
    all of them. -/
structure Subquery where
  table : String
  aliasName : Option String
  columns : List String
  join : Option Join
  filter : Option Predicate

end

namespace Operand

/-- Whether an operand is the null value. -/
def isNull : Operand → Bool
  | null => true
  | _ => false

/-- The text of a text operand. -/
def text? : Operand → Option String
  | text s => some s
  | _ => none

/-- The predicate of an operand that is one. -/
def predicate? : Operand → Option Predicate
  | predicate p => some p
  | _ => none

/-- The name of an operand's kind. -/
def kindName : Operand → String
  | null => "null"
  | bool _ => "bool"
  | int _ => "int"
  | float _ => "float"
  | text _ => "string"
  | instant _ => "timestamp"
  | array _ => "array"
  | raw _ => "raw"
  | predicate _ => "condition"

end Operand

/-- The text of the first parameter with a name, if it is a text. -/
def textParam? (params : List (String × Operand)) (key : String) : Option String :=
  (params.find? fun p => p.1 == key).bind fun p => p.2.text?

namespace Predicate

/-- The column a predicate is bound to. -/
def column? : Predicate → Option String
  | compare column .. | pattern column .. | member column .. | null column _ => some column
  | _ => none

end Predicate

end RowPolicy
