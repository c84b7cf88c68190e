import RowPolicy.Manifest.Policy
import RowPolicy.Manifest.Realize
import RowPolicy.Table

namespace RowPolicy.Manifest

/-!
# Manifests as SQL

* `Manifest.enabling` — the statements that make the tables obey their
  policies;
* `Manifest.sql` — the text of a manifest: those statements if they are asked
  for, then its groups;
* `Manifest.sqlOfText`, `Manifest.Failure` — the same from JSON text, and what
  can go wrong on the way.
-/

/-- One statement per table, in the order of the tables. -/
def enabling (m : Manifest) : List String := m.tables.map Table.enableSecurity

/-- The text of a manifest, without a last terminator. -/
def sql (m : Manifest) (extras : Extras) (enable : Bool) : Except Refusal String := do
  let groups ← m.realize
  let texts ← (groups.mapM fun (group : PolicyGroup) => group.sql extras).mapError .fault
  return joined statementSeparator ((if enable then m.enabling else []) ++ texts)

/-! ### From text -/

/-- Why a text gives no SQL. -/
inductive Failure where
  /-- It describes no manifest. -/
  | unreadable (fault : Json.Fault)
  /-- Its manifest cannot be realized. -/
  | refused (refusal : Refusal)

/-- The wording of a failure.  Of a text that is no JSON, no more is said. -/
def Failure.message : Failure → String
  | unreadable (.stopped _) => "failed to parse manifest"
  | unreadable (.mismatch m) => "failed to parse manifest: " ++ m.message
  | refused refusal => refusal.message

/-- The SQL of the manifest that a text describes. -/
def sqlOfText (text : String) (extras : Extras) (enable : Bool) : Except Failure String := do
  let m ← (ofText text).mapError .unreadable
  (m.sql extras enable).mapError .refused

example :
    (sqlOfText "[[[\"g\", null, [[\"t\", [\"public_access\"]]]]]]" {} false).toOption =
      some "CREATE POLICY \"t_public_read\" ON \"t\" FOR SELECT USING (\"is_public\" = TRUE)" := by
  decide +kernel

end RowPolicy.Manifest
