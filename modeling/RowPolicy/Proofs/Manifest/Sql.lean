import RowPolicy.Manifest.Sql
import RowPolicy.Proofs.Manifest.Realize

namespace RowPolicy

/-!
# What rendered text is made of

Rendering fails for want of a predicate, or because a manifest cannot be realized, and
for no other reason.  Where it succeeds the text is put together from pieces:

* `Policy.text`, `Policy.sql_eq_ok` — a policy with its extras;
* `PolicyGroup.text`, `PolicyGroup.sql_eq_ok` — a group, with its comment line;
* `Manifest.sql_eq_ok`, `Manifest.sql_eq_error` — a manifest, with the statements in front of
  its groups.
-/

namespace Policy

/-- Whether a policy has a predicate at all. -/
def HasClause (policy : Policy) : Prop := policy.usingExpr.isSome ∨ policy.checkExpr.isSome

/-- The text of a policy with its extras, if it has a predicate. -/
def text (policy : Policy) (extras : Extras) : String :=
  (if extras.indexes then indexBlock (Index.statements policy.table policy.indexColumns) else "") ++
    policy.createStatement ++ (if extras.comments then policy.commentBlock else "")

/-- A policy has a text exactly if it has a clause, whatever is written with it. -/
theorem sql_eq_ok {policy : Policy} {extras : Extras} {sql : String} :
    policy.sql extras = .ok sql ↔ policy.HasClause ∧ sql = policy.text extras := by
  unfold Policy.sql
  simp only [bind_eq_ok, validate_eq_ok, pure_eq_ok]
  constructor
  · rintro ⟨_, ⟨hclause, rfl⟩, rfl⟩
    exact ⟨hclause, rfl⟩
  · rintro ⟨hclause, rfl⟩
    exact ⟨policy, ⟨hclause, rfl⟩, rfl⟩

/-- Without extras the text of a policy is its one statement. -/
theorem text_default (policy : Policy) : policy.text {} = policy.createStatement := by
  simp [text]

end Policy

namespace PolicyGroup

/-- The text of a group, if each of its policies has a predicate. -/
def text (group : PolicyGroup) (extras : Extras) : String :=
  (group.description.map commentLine).getD "" ++
    joined statementSeparator (group.policies.map (·.text extras))

/-- A group has a text exactly if each of its policies has a clause. -/
theorem sql_eq_ok {group : PolicyGroup} {extras : Extras} {sql : String} :
    group.sql extras = .ok sql ↔
      (∀ policy ∈ group.policies, policy.HasClause) ∧ sql = group.text extras := by
  unfold PolicyGroup.sql
  -- the policies are written one by one
  have hpolicies (texts : List String) : group.policies.mapM (·.sql extras) = .ok texts ↔
      (∀ policy ∈ group.policies, policy.HasClause) ∧ texts = group.policies.map (·.text extras) :=
    mapM_eq_ok_map fun _ _ => Policy.sql_eq_ok
  simp only [bind_eq_ok, hpolicies, pure_eq_ok]
  constructor
  · rintro ⟨_, ⟨h, rfl⟩, rfl⟩
    exact ⟨h, rfl⟩
  · rintro ⟨h, rfl⟩
    exact ⟨_, ⟨h, rfl⟩, rfl⟩

end PolicyGroup

/-- A manifest has a text exactly if it is accepted and each policy has a clause. -/
theorem Manifest.sql_eq_ok {m : Manifest} {extras : Extras} {enable : Bool} {sql : String} :
    m.sql extras enable = .ok sql ↔
      ∃ groups, m.realize = .ok groups ∧
        (∀ group ∈ groups, ∀ policy ∈ group.policies, policy.HasClause) ∧
        sql = joined statementSeparator
          ((if enable then m.enabling else []) ++ groups.map (·.text extras)) := by
  -- the groups are written one by one, and the statements for the tables in front of them
  have hgroups (groups : List PolicyGroup) (texts : List String) :
      groups.mapM (·.sql extras) = .ok texts ↔
        (∀ group ∈ groups, ∀ policy ∈ group.policies, policy.HasClause) ∧
          texts = groups.map (·.text extras) :=
    mapM_eq_ok_map fun _ _ => PolicyGroup.sql_eq_ok
  unfold Manifest.sql
  simp only [bind_eq_ok, mapError_eq_ok, hgroups, pure_eq_ok]
  constructor
  · rintro ⟨groups, hrealize, _, ⟨hclause, rfl⟩, rfl⟩
    exact ⟨groups, hrealize, hclause, rfl⟩
  · rintro ⟨groups, hrealize, hclause, rfl⟩
    exact ⟨groups, hrealize, _, ⟨hclause, rfl⟩, rfl⟩

/-- A manifest that is refused has no text. -/
theorem Manifest.sql_eq_error {m : Manifest} {r : Refusal} (h : m.realize = .error r)
    (extras : Extras) (enable : Bool) : m.sql extras enable = .error r := by
  unfold Manifest.sql
  rw [h]
  rfl

end RowPolicy
