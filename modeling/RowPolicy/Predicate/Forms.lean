import RowPolicy.Predicate.Combine
import RowPolicy.Predicate.Sql

namespace RowPolicy.Predicate

/-!
# Ready-made predicates

Access rules are written with a few recurring forms: the user owns the row, the
row belongs to the tenant of the session, the user is listed in a membership
table or holds a role.

* `isOwner`, `isPublic`, `belongsToTenant`, `releasedBefore` — comparisons of
  one column;
* `isMemberOf`, `userBelongsTo` — membership through another table;
* `hasRole`, `alwaysTrue` — forms that are bound to no column;
* `Default` — the names that are used where none is given.
-/

/-! ### Names used by default -/

namespace Default

/-- The column that holds the owner of a row. -/
def ownerColumn : String := "user_id"

/-- The column that holds the tenant of a row. -/
def tenantColumn : String := "tenant_id"

/-- The setting that holds the tenant of the session. -/
def tenantSetting : String := "app.current_tenant_id"

/-- The column that marks public rows. -/
def publicColumn : String := "is_public"

/-- The key by which membership tables refer to a row. -/
def localKey : String := "id"

/-- The table that lists the roles of users. -/
def roleTable : String := "user_roles"

end Default

/-! ### Comparisons of one column -/

/-- The authenticated user is the value of the column. -/
def isOwner (column : String) : Predicate :=
  compare column .eq (.predicate (context .authUid))

/-- The column is true. -/
def isPublic (column : String) : Predicate := compare column .eq (.bool true)

/-- The column holds the tenant that a setting of the session names. -/
def belongsToTenant (column setting : String) : Predicate :=
  compare column .eq (.predicate (context (.setting setting .integer)))

/-- The column is not after a date, or not after the present if none is
    given. -/
def releasedBefore (column : String) (date : Option Instant) : Predicate :=
  match date with
  | some t => compare column .le (.instant t)
  | none => compare column .le (.raw "now()")

/-! ### Other tables -/

/-- A membership table links the key of the row to the user. -/
def isMemberOf (table foreignKey localKey : String) : Predicate :=
  helper Helper.isMemberOf
    [("join_table", .text table), ("foreign_key", .text foreignKey), ("local_key", .text localKey)]

/-- The column is among the values that another table selects in the rows of
    the user. -/
def userBelongsTo (column table select : String) : Predicate :=
  member column .inside (.subquery
    { table, aliasName := none, columns := [select], join := none,
      filter := some (isOwner Helper.userColumn) })

/-- The user holds a role according to a table of roles. -/
def hasRole (role table : String) : Predicate :=
  helper Helper.hasRole [("role", .text role), ("table", .text table)]

/-- The predicate that holds for every row. -/
def alwaysTrue : Predicate := helper Helper.alwaysTrue []

example : (isMemberOf "project_members" "project_id" "id").sql =
    "\"id\" IN (SELECT project_id FROM project_members WHERE \"user_id\" = auth.uid())" := by
  decide +kernel

end RowPolicy.Predicate
