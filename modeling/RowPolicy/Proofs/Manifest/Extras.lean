import RowPolicy.Proofs.Manifest.Duplicates

namespace RowPolicy

open Sql

/-!
# Extras around policies

Indexes, comments and the statements that enable row security are added to the text of a
manifest on demand.  They stand around the policies: whether there is a text, and what it
says of the policies, does not depend on them.

* `Policy.front`, `Policy.behind`, `Policy.sql_eq_framed` — what stands around a policy;
* `PolicyDraft.hasClause_realize`, `Manifest.hasClause_realize` — a policy that a draft makes
  is rendered;
* `Sql.createsPolicy`, `Manifest.createStatements_eq` — the statements of a text that create
  policies;
* `Manifest.extras_keep_policies` — a manifest with all extras.
-/

/-! ### Policies -/

namespace Policy

/-- The indexes in front of a policy, if they are asked for. -/
def front (policy : Policy) (extras : Extras) : String :=
  if extras.indexes then indexBlock (Index.statements policy.table policy.indexColumns) else ""

/-- The comment behind a policy, if it is asked for. -/
def behind (policy : Policy) (extras : Extras) : String :=
  if extras.comments then policy.commentBlock else ""

/-- A policy with extras is the policy without them, and the extras around it. -/
theorem sql_eq_framed {policy : Policy} (h : policy.HasClause) (extras : Extras) :
    policy.sql {} = .ok policy.createStatement ∧
      policy.sql extras =
        .ok (policy.front extras ++ policy.createStatement ++ policy.behind extras) :=
  ⟨sql_eq_ok.mpr ⟨h, policy.text_default.symm⟩, sql_eq_ok.mpr ⟨h, rfl⟩⟩

end Policy

/-- A policy that a draft makes has a predicate, whatever its name is replaced with. -/
theorem PolicyDraft.hasClause_realize {draft : PolicyDraft} {policy : Policy}
    (h : draft.realize = .ok policy) : policy.HasClause := by
  obtain ⟨start, settled, -, -, hclause, rfl⟩ := realize_eq_ok.mp h
  exact hclause

/-! ### Statements that create policies -/

/-- Whether a statement creates a policy. -/
def Sql.createsPolicy (statement : String) : Bool :=
  (Policy.after? "CREATE POLICY " statement.toList).isSome

/-! ### Manifests -/

namespace Manifest

/-- Every policy of an accepted manifest has a clause, so each of them has a text. -/
theorem hasClause_realize {m : Manifest} {groups : List PolicyGroup} (h : m.realize = .ok groups) :
    ∀ group ∈ groups, ∀ policy ∈ group.policies, policy.HasClause := by
  intro group hgroup policy hpolicy
  obtain ⟨draft, -, hrealizes⟩ := exists_of_mem_right (realizes_of_ok h).2 hgroup
  obtain ⟨d, -, hd⟩ := exists_of_mem_right hrealizes.policies hpolicy
  exact PolicyDraft.hasClause_realize hd

/-- In the text of a manifest that takes over no SQL, the statements that create policies are
    those of its policies, in order, whatever the extras are. -/
theorem createStatements_eq {m : Manifest} (hraws : m.raws = []) {groups : List PolicyGroup}
    (h : m.realize = .ok groups) (extras : Extras) (enable : Bool) :
    (statements (joined statementSeparator
        ((if enable then m.enabling else []) ++ groups.map (·.text extras)) ++ ";")).filter
        createsPolicy =
      (groups.flatMap (·.policies)).map Policy.createStatement := by
  -- the policies' own statements begin with the words
  have hcreates : ∀ policy : Policy,
      Option.guard createsPolicy policy.createStatement = some policy.createStatement := by
    intro policy
    rw [Option.guard_eq_some_iff, createsPolicy, Policy.toList_createStatement, Policy.after_words]
    exact ⟨rfl, rfl⟩
  -- and no other statement does
  have hother : ∀ s, Policy.after? "CREATE POLICY " s.toList = none →
      Option.guard createsPolicy s = none := by
    intro s hs
    rw [Option.guard_eq_none_iff, createsPolicy, hs]
    rfl
  rw [(runs_texts hraws h (hasClause_realize h) extras enable).statements_eq,
    ← List.filterMap_eq_filter, filterMap_statements hother m fun policy _ => hcreates policy]

/-- **Extras keep the policies.** A manifest either is refused, and then it is with all extras
    and for the same reason; or it has a text with all extras.  Each policy has one text of its
    own, without extras, and with extras it is this text, the indexes in front of it and the
    comment behind it; the text of the manifest is made of these in order.  If the manifest
    takes over no SQL, the statements in the text that create policies are the texts of its
    policies and no others. -/
theorem extras_keep_policies (m : Manifest) :
    (∃ r, m.realize = .error r ∧ ∀ extras enable, m.sql extras enable = .error r) ∨
    ∃ groups, m.realize = .ok groups ∧
      ∃ own : Policy → String,
        (∀ policy ∈ groups.flatMap (·.policies), policy.sql {} = .ok (own policy)) ∧
        ∀ extras enable,
          (∀ policy ∈ groups.flatMap (·.policies),
            policy.sql extras = .ok (policy.front extras ++ own policy ++ policy.behind extras)) ∧
          ∃ sql, m.sql extras enable = .ok sql ∧
            sql = joined statementSeparator ((if enable then m.enabling else []) ++
              groups.map fun group => (group.description.map commentLine).getD "" ++
                joined statementSeparator (group.policies.map fun policy =>
                  policy.front extras ++ own policy ++ policy.behind extras)) ∧
            (m.raws = [] → (statements (sql ++ ";")).filter createsPolicy =
              (groups.flatMap (·.policies)).map own) := by
  -- the extras come into play only once the manifest is accepted
  cases hrealize : m.realize with
  | error r => exact .inl ⟨r, rfl, sql_eq_error hrealize⟩
  | ok groups =>
    -- accepted policies have clauses, so each has its own text with any extras
    have hclause := hasClause_realize hrealize
    have hall : ∀ policy ∈ groups.flatMap (·.policies), policy.HasClause := by
      intro policy hpolicy
      obtain ⟨group, hgroup, hpolicy⟩ := List.mem_flatMap.mp hpolicy
      exact hclause group hgroup policy hpolicy
    refine .inr ⟨groups, rfl, Policy.createStatement,
      fun policy hpolicy => (Policy.sql_eq_framed (hall policy hpolicy) {}).1, ?_⟩
    intro extras enable
    refine ⟨fun policy hpolicy => (Policy.sql_eq_framed (hall policy hpolicy) extras).2, _,
      sql_eq_ok.mpr ⟨groups, hrealize, hclause, rfl⟩, rfl, ?_⟩
    exact fun hraws => createStatements_eq hraws hrealize extras enable

end Manifest

end RowPolicy
