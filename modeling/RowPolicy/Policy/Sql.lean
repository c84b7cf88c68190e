import RowPolicy.Index
import RowPolicy.Policy.Basic

namespace RowPolicy

/-!
# Policies as SQL statements

* `Policy.createStatement` — the `CREATE POLICY` statement;
* `Policy.commentStatement` — the `COMMENT ON POLICY` statement;
* `Policy.sql` — the statement with the extras that are asked for.
-/

/-- Statements that may accompany a policy. -/
structure Extras where
  /-- Indexes on the columns of its predicates, in front of it. -/
  indexes : Bool := false
  /-- Its description as a comment, behind it. -/
  comments : Bool := false
  deriving DecidableEq, Repr

namespace Policy

/-- The columns that the predicates of a policy look rows up by. -/
def indexColumns (policy : Policy) : List String :=
  Index.columns policy.usingExpr policy.checkExpr

/-- A predicate in a clause of its own, with a space in front; nothing without
    a predicate. -/
def predicateClause (keyword : String) : Option Predicate → String
  | none => ""
  | some p => " " ++ keyword ++ " (" ++ p.sql ++ ")"

/-- The `TO` clause, with a space in front; nothing without a role. -/
def roleClause : Option String → String
  | none => ""
  | some role => " TO " ++ escapeIdentifier role

/-- The statement that creates a policy. -/
def createStatement (policy : Policy) : String :=
  "CREATE POLICY " ++ quoteIdentifier policy.name ++ " ON " ++ Reference.quoted policy.table ++
    (if policy.restrictive then " AS RESTRICTIVE" else "") ++
    " FOR " ++ policy.command.sql ++ roleClause policy.role ++
    predicateClause "USING" policy.usingExpr ++ predicateClause "WITH CHECK" policy.checkExpr

/-- The statement that attaches a description to a policy. -/
def commentStatement (policy : Policy) (description : String) : String :=
  "COMMENT ON POLICY " ++ quoteIdentifier policy.name ++ " ON " ++
    Reference.quoted policy.table ++ " IS " ++ quoteText description

/-- Each statement with a terminator and a line break, and an empty line behind
    them; nothing for no statements. -/
def indexBlock (statements : List String) : String :=
  if statements.isEmpty then ""
  else String.join (statements.map fun s => s ++ ";\n") ++ "\n"

/-- The comment statement behind a policy, with the terminator of the policy in
    front; nothing without a description. -/
def commentBlock (policy : Policy) : String :=
  match policy.description with
  | none => ""
  | some text => ";\n" ++ policy.commentStatement text

/-- The text of a policy with its extras, without a last terminator. -/
def sql (policy : Policy) (extras : Extras) : Except Fault String := do
  let policy ← policy.validate
  let indexes :=
    if extras.indexes then indexBlock (Index.statements policy.table policy.indexColumns) else ""
  let comment := if extras.comments then policy.commentBlock else ""
  return indexes ++ policy.createStatement ++ comment

end Policy

end RowPolicy
