import RowPolicy.Decimal.Layout
import RowPolicy.Predicate.Basic
import RowPolicy.Reference

namespace RowPolicy

/-!
# Predicates as SQL text

* `Operand.sql`, `Predicate.sql`, `Subquery.sql` — the SQL text of each sort,
  by recursion on one another;
* `floatLiteral`, `Context.sql`, `Membership.sql`, `Helper.sql` — the forms
  that need no recursion, given the text of their parts.

Columns are always quoted; tables, aliases, functions and selected columns only
where they have to be.  Groups are parenthesised, and no other predicate is.
-/

/-! ### Forms without recursion -/

/-- A float: plain digits, or the quoted name of a special value. -/
def floatLiteral (x : Float) : String :=
  if x.isNaN then quoteText "NaN"
  else if x.isInf then quoteText (if 0 < x then "Infinity" else "-Infinity")
  else Decimal.Layout.plain.write x

/-- An instant, as a string cast to a timestamp. -/
def instantLiteral (t : Instant) : String := quoteText t.text ++ "::TIMESTAMP"

/-- An array of items that are SQL already. -/
def arrayLiteral (items : List String) : String := "ARRAY[" ++ joined ", " items ++ "]"

/-- The value of a context. -/
def Context.sql : Context → String
  | authUid => "auth.uid()"
  | currentUser => "current_user"
  | setting key cast => "current_setting(" ++ quoteText key ++ ", true)::" ++ cast.sql

/-- Membership in a list.  An empty list has forms of its own, as SQL has
    neither an empty list nor an empty array without a type. -/
def Membership.listSql (column : String) : Membership → List String → String
  | inside, [] => "FALSE"
  | inside, items => Reference.quoted column ++ " IN (" ++ joined ", " items ++ ")"
  | contains, [] => Reference.quoted column ++ " @> '\x7b\x7d'"
  | contains, items => Reference.quoted column ++ " @> " ++ arrayLiteral items

/-- Membership in the rows of a subquery. -/
def Membership.subquerySql (column : String) : Membership → String → String
  | inside, query => Reference.quoted column ++ " IN " ++ query
  | contains, query => Reference.quoted column ++ " @> ARRAY" ++ query

/-- The members of a group with the connective between them.  The empty group
    is the neutral value of its connective. -/
def Connective.groupSql : Connective → List String → String
  | and, [] => "TRUE"
  | or, [] => "FALSE"
  | op, members => "(" ++ joined (" " ++ op.sql ++ " ") members ++ ")"

/-- A function applied to arguments. -/
def applySql (function : String) (args : List String) : String :=
  Reference.escaped function ++ "(" ++ joined ", " args ++ ")"

/-! ### Helpers -/

namespace Helper

/-- The helper that always holds. -/
def alwaysTrue : String := "always_true"

/-- The helper that looks up a role of the user. -/
def hasRole : String := "has_role"

/-- The helper that looks up the user in a membership table. -/
def isMemberOf : String := "is_member_of"

/-- The column that holds the user in role and membership tables. -/
def userColumn : String := "user_id"

/-- The test that a table of roles gives the user a role. -/
def roleSql (table role : String) : String :=
  "EXISTS (SELECT 1 FROM " ++ Reference.escaped table ++
    " WHERE user_id = auth.uid() AND role = " ++ quoteText role ++ ")"

/-- The test that a membership table links the row to the user. -/
def memberSql (table foreignKey localKey : String) : String :=
  Reference.quoted localKey ++ " IN (SELECT " ++ Reference.escaped foreignKey ++ " FROM " ++
    Reference.escaped table ++ " WHERE " ++ Reference.quoted userColumn ++ " = auth.uid())"

/-- The text of a helper whose name is known and whose parameters are all
    there. -/
def knownSql? (name : String) (params : List (String × Operand)) : Option String :=
  if name = alwaysTrue then some "TRUE"
  else if name = hasRole then do
    let role ← textParam? params "role"
    let table ← textParam? params "table"
    return roleSql table role
  else if name = isMemberOf then do
    let table ← textParam? params "join_table"
    let foreignKey ← textParam? params "foreign_key"
    let localKey ← textParam? params "local_key"
    return memberSql table foreignKey localKey
  else none

/-- The text of a helper: its own form if it is known, else a function applied
    to the parameters, whose texts are `args`. -/
def sql (name : String) (params : List (String × Operand)) (args : List String) : String :=
  (knownSql? name params).getD (applySql name args)

end Helper

/-! ### Predicates, operands and subqueries -/

/-- A table with its alias, if it has one. -/
def tableSql (table : String) (aliasName : Option String) : String :=
  match aliasName with
  | none => Reference.escaped table
  | some a => Reference.escaped table ++ " " ++ escapeIdentifier a

/-- Selected columns; none stand for all. -/
def columnsSql (columns : List String) : String :=
  if columns.isEmpty then "*" else joined ", " (columns.map Reference.escaped)

mutual

/-- The SQL text of an operand. -/
def Operand.sql : Operand → String
  | .null => "NULL"
  | .bool b => if b then "TRUE" else "FALSE"
  | .int n => toString n.toInt
  | .float x => floatLiteral x
  | .text s => quoteText s
  | .instant t => instantLiteral t
  | .array items => arrayLiteral (Operand.sqls items)
  | .raw sql => sql
  | .predicate p => p.sql

/-- The SQL text of each operand. -/
def Operand.sqls : List Operand → List String
  | [] => []
  | v :: vs => v.sql :: Operand.sqls vs

/-- The SQL text of the operand of each parameter. -/
def Operand.paramSqls : List (String × Operand) → List String
  | [] => []
  | p :: ps => Operand.paramSql p :: Operand.paramSqls ps

/-- The SQL text of the operand of a parameter. -/
def Operand.paramSql : String × Operand → String
  | (_, v) => v.sql

/-- The SQL text of a membership in a source. -/
def Source.sql (column : String) (op : Membership) : Source → String
  | .values items => op.listSql column (Operand.sqls items)
  | .subquery q => op.subquerySql column q.sql

/-- The SQL text of an argument. -/
def Argument.sql : Argument → String
  | .column reference => Reference.quoted reference
  | .predicate p => p.sql

/-- The SQL text of each argument. -/
def Argument.sqls : List Argument → List String
  | [] => []
  | a :: as => a.sql :: Argument.sqls as

/-- The SQL text of a predicate. -/
def Predicate.sql : Predicate → String
  | .compare column op operand => Reference.quoted column ++ " " ++ op.sql ++ " " ++ operand.sql
  | .pattern column op pattern =>
    Reference.quoted column ++ " " ++ op.sql ++ " " ++ quoteText pattern
  | .member column op source => Source.sql column op source
  | .null column test => Reference.quoted column ++ " " ++ test.sql
  | .group op members => op.groupSql (Predicate.sqls members)
  | .helper name params => Helper.sql name params (Operand.paramSqls params)
  | .call name args => applySql name (Argument.sqls args)
  | .context c => c.sql

/-- The SQL text of each predicate. -/
def Predicate.sqls : List Predicate → List String
  | [] => []
  | p :: ps => p.sql :: Predicate.sqls ps

/-- The SQL text of a join, with a space in front; nothing without a join. -/
def Join.clause : Option Join → String
  | none => ""
  | some j => " " ++ j.sql

/-- The SQL text of a join. -/
def Join.sql : Join → String
  | ⟨kind, table, aliasName, on⟩ =>
    kind.sql ++ " JOIN " ++ tableSql table aliasName ++ " ON " ++ on.sql

/-- The `WHERE` clause of a filter, with a space in front; nothing without a
    filter. -/
def Predicate.whereClause : Option Predicate → String
  | none => ""
  | some p => " WHERE " ++ p.sql

/-- The SQL text of a subquery, in parentheses. -/
def Subquery.sql : Subquery → String
  | ⟨table, aliasName, columns, join, filter⟩ =>
    "(SELECT " ++ columnsSql columns ++ " FROM " ++ tableSql table aliasName ++
      Join.clause join ++ Predicate.whereClause filter ++ ")"

end

end RowPolicy
