import RowPolicy.Policy.Basic
import RowPolicy.Predicate.Forms

namespace RowPolicy

/-!
# Templates — policies for common access rules

A template gives a policy its name, made from the table, its command and its
predicate; role, description and restrictiveness can still be set.
-/

/-- A common access rule. -/
inductive Template where
  /-- Users reach the rows they own. -/
  | userOwned (column : String) (command : Command)
  /-- A session reaches the rows of its tenant. -/
  | tenantIsolation (column setting : String)
  /-- Everybody reads public rows. -/
  | publicAccess (column : String)
  /-- Users with a role reach all rows. -/
  | roleAccess (role : String) (command : Command)
  deriving DecidableEq, Repr

namespace Template

/-- The name of the policy on a table. -/
def policyName (table : String) : Template → String
  | userOwned .. => table ++ "_owner_access"
  | tenantIsolation .. => table ++ "_tenant_isolation"
  | publicAccess _ => table ++ "_public_read"
  | roleAccess role _ => table ++ "_" ++ role ++ "_access"

/-- The command of the policy. -/
def command : Template → Command
  | userOwned _ command | roleAccess _ command => command
  | tenantIsolation .. => .all
  | publicAccess _ => .select

/-- The predicate of the policy. -/
def predicate : Template → Predicate
  | userOwned column _ => .isOwner column
  | tenantIsolation column setting => .belongsToTenant column setting
  | publicAccess column => .isPublic column
  | roleAccess role _ => .hasRole role Predicate.Default.roleTable

/-- The policy of a template on a table. -/
def policy (template : Template) (table : String) : Policy :=
  (Policy.start (template.policyName table) table template.command).allow template.predicate

end Template

end RowPolicy
