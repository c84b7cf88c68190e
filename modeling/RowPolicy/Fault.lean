import RowPolicy.Text.Joined

namespace RowPolicy

/-!
# Faults — why a policy or a subquery is refused

* `Fault` — the causes, each with what its message needs;
* `Hint` — the advice that goes with a table out of scope;
* `Fault.message`, `Hint.message` — the wording.
-/

/-- The clause of a subquery whose columns were looked at. -/
inductive Clause where
  | filter
  | joinOn
  deriving DecidableEq, Repr

/-- The keywords of a clause. -/
def Clause.sql : Clause → String
  | filter => "WHERE"
  | joinOn => "JOIN ON"

/-- Advice on a table that is out of scope. -/
inductive Hint where
  /-- An `ON` clause sees the tables so far and the joined one. -/
  | onlyJoined (available : List String) (joined : String)
  /-- There is a join already. -/
  | alreadyJoins (joined : String)
  /-- A join with the one missing table helps. -/
  | addJoin (table : String)
  /-- No single join brings in several tables. -/
  | tooMany (tables : List String)
  deriving DecidableEq, Repr

/-- The wording of a hint. -/
def Hint.message : Hint → String
  | onlyJoined available table =>
    "the ON clause may only reference " ++ joined ", " available ++ " and " ++ table
  | alreadyJoins table =>
    "this subquery already joins '" ++ table ++ "'; use a nested subquery for other tables"
  | addJoin table =>
    "add .join(JoinClause::inner(\"" ++ table ++ "\", <on condition>)) before .filter(...)"
  | tooMany tables =>
    "a subquery can join only one table; " ++ joined ", " tables ++ " cannot all be joined here"

/-- Why a policy or a subquery is refused. -/
inductive Fault where
  /-- A clause refers to tables that its subquery does not bring in. -/
  | missingTables (clause : Clause) (tables available : List String) (hint : Hint)
  /-- A subquery on a table has a join already. -/
  | duplicateJoin (table existing : String)
  /-- A policy has no predicate at all. -/
  | missingPredicate (policy : String)
  deriving DecidableEq, Repr

namespace Fault

/-- The wording of a fault. -/
def message : Fault → String
  | missingTables clause tables _ hint =>
    clause.sql ++ " clause references table(s) not available in this scope: " ++
      joined ", " tables ++ " (" ++ hint.message ++ ")"
  | duplicateJoin table existing =>
    "subquery on '" ++ table ++ "' already joins '" ++ existing ++
      "'; only one join per subquery is supported"
  | missingPredicate policy =>
    "policy '" ++ policy ++ "' has neither a USING nor a WITH CHECK clause"

/-- Whether a fault is about scope; the others are about structure. -/
def isScope : Fault → Bool
  | missingTables .. => true
  | _ => false

/-- The tables a fault reports as missing. -/
def missing : Fault → List String
  | missingTables _ tables .. => tables
  | _ => []

end Fault

end RowPolicy
