import RowPolicy.Reference

namespace RowPolicy.Table

/-!
# Tables — statements that switch row level security on and drop policies
-/

/-- The statement that makes a table obey its policies. -/
def enableSecurity (table : String) : String :=
  "ALTER TABLE " ++ Reference.quoted table ++ " ENABLE ROW LEVEL SECURITY"

/-- The statement that makes even the owner of a table obey its policies. -/
def forceSecurity (table : String) : String :=
  "ALTER TABLE " ++ Reference.quoted table ++ " FORCE ROW LEVEL SECURITY"

/-- The statement that removes a policy from a table, if it is there. -/
def dropPolicy (name table : String) : String :=
  "DROP POLICY IF EXISTS " ++ quoteIdentifier name ++ " ON " ++ Reference.quoted table

end RowPolicy.Table
