import RowPolicy.Command
import RowPolicy.Fault
import RowPolicy.Predicate.Basic

namespace RowPolicy

/-!
# Policies

A policy protects one table against one command, or all.  Its `USING` predicate
tests the rows a command finds, its `WITH CHECK` predicate the rows it writes;
at least one of them is needed.

* `Policy.start` — a policy that has no predicate yet;
* `Policy.Setter`, `Policy.set`, `Policy.setAll` — settings of a policy, as
  data; a later setting replaces an earlier one;
* `Policy.validate` — the test that there is a predicate.
-/

/-- A policy on a table. -/
structure Policy where
  name : String
  table : String
  command : Command
  /-- The role the policy is for; all roles if there is none. -/
  role : Option String
  /-- The predicate on rows that are found. -/
  usingExpr : Option Predicate
  /-- The predicate on rows that are written. -/
  checkExpr : Option Predicate
  /-- Whether the policy narrows what other policies permit. -/
  restrictive : Bool
  description : Option String

namespace Policy

/-- A policy with nothing but its name, its table and its command. -/
def start (name table : String) (command : Command) : Policy where
  name := name
  table := table
  command := command
  role := none
  usingExpr := none
  checkExpr := none
  restrictive := false
  description := none

/-- One setting of a policy. -/
inductive Setter where
  /-- The role the policy is for. -/
  | role (name : String)
  /-- The `USING` predicate. -/
  | rowsFound (p : Predicate)
  /-- The `WITH CHECK` predicate. -/
  | rowsWritten (p : Predicate)
  /-- The predicate of every clause that the command evaluates. -/
  | allow (p : Predicate)
  | restrictive
  | description (text : String)

/-- A policy whose predicates are replaced in all clauses that its command
    evaluates. -/
def allow (policy : Policy) (p : Predicate) : Policy :=
  { policy with
    usingExpr := if policy.command.usesUsing then some p else policy.usingExpr
    checkExpr := if policy.command.usesCheck then some p else policy.checkExpr }

/-- A policy after one setting. -/
def set (policy : Policy) : Setter → Policy
  | .role name => { policy with role := some name }
  | .rowsFound p => { policy with usingExpr := some p }
  | .rowsWritten p => { policy with checkExpr := some p }
  | .allow p => policy.allow p
  | .restrictive => { policy with restrictive := true }
  | .description text => { policy with description := some text }

/-- A policy after some settings, one after the other. -/
def setAll (policy : Policy) (setters : List Setter) : Policy := setters.foldl set policy

/-- Refuses a policy without any predicate. -/
def validate (policy : Policy) : Except Fault Policy :=
  if policy.usingExpr.isNone && policy.checkExpr.isNone then
    .error (.missingPredicate policy.name)
  else .ok policy

end Policy

end RowPolicy
