import RowPolicy.Proofs.Manifest.Duplicates
import RowPolicy.Proofs.Policy.Settings

namespace RowPolicy

/-!
# Manifests that are accepted

A manifest is accepted if it has groups, none of them without policies, each draft of a policy
can be realized, and no two policies have one name on one table.  Nothing of an accepted
manifest is lost, added or moved.

* `Policy.table_setAll`, `PolicyDraft.table_realize` — a policy is on the table of its draft;
* `Manifest.realizeGroups_eq_ok`, `Manifest.realize_eq_ok` — what groups are made of drafts;
* `Manifest.policyDrafts`, `Manifest.realized` — the drafts of policies, and the policies that
  can be made of them;
* `Manifest.accepts_iff` — which manifests are accepted, and what they become.
-/

/-! ### Tables -/

namespace Policy

/-- No setter moves a policy to another table. -/
theorem table_setAll (policy : Policy) (setters : List Setter) :
    (policy.setAll setters).table = policy.table := by
  rw [setAll_eq]

end Policy

namespace PolicyDraft

/-- The policy a draft starts from is on the draft's table, with a template and without. -/
theorem table_base {draft : PolicyDraft} {policy : Policy} (h : draft.base = .ok policy) :
    policy.table = draft.table := by
  obtain ⟨template, -, -, rfl⟩ | ⟨-, hexplicit⟩ := base_eq_ok.mp h
  · exact Policy.table_setAll _ [.allow template.predicate]
  · obtain ⟨name, command, setters, -, -, -, rfl⟩ := explicit_eq_ok.mp hexplicit
    exact Policy.table_setAll _ setters

/-- A policy is on the table that its draft names. -/
theorem table_realize {draft : PolicyDraft} {policy : Policy} (h : draft.realize = .ok policy) :
    policy.table = draft.table := by
  obtain ⟨start, settled, hbase, rfl, -, rfl⟩ := realize_eq_ok.mp h
  exact (Policy.table_setAll start draft.settings).trans (table_base hbase)

end PolicyDraft

/-! ### Groups -/

namespace Manifest

/-- Groups are made of drafts one by one, if no policy in them has a key that another one has
    or that was met before. -/
theorem realizeGroups_eq_ok {seen : List (String × String)} (hseen : seen.Nodup)
    {drafts : List GroupDraft} {groups : List PolicyGroup} :
    realizeGroups seen drafts = .ok groups ↔
      List.Forall₂ GroupDraft.Realizes drafts groups ∧
        (seen ++ (groups.flatMap (·.policies)).map Policy.key).Nodup := by
  constructor
  · exact fun h => ⟨forall₂_of_realizeGroups h, nodup_of_realizeGroups hseen h⟩
  · rintro ⟨hall, hnodup⟩
    induction hall generalizing seen with
    | nil => rfl
    | @cons draft group drafts groups hgroup _ ih =>
      -- first the keys of this group, then those of the others
      rw [List.flatMap_cons, List.map_append, ← List.append_assoc] at hnodup
      have hhere : (seen ++ group.policies.map Policy.key).Nodup := (List.nodup_append.mp hnodup).1
      have hne : ¬ draft.policies.isEmpty = true := by simpa using hgroup.policies_ne_nil
      rw [realizeGroups, if_neg hne]
      simp only [mapM_eq_ok.mpr hgroup.policies, (register_eq_ok hseen).mpr ⟨rfl, hhere⟩,
        ih hhere hnodup, ok_bind, pure_eq_ok, List.cons.injEq, and_true]
      rw [← hgroup.name_eq, ← hgroup.description_eq]

/-- A manifest is accepted with some groups exactly if it has groups at all, each of them is
    realized as the group in its place, and no two policies of all of them share name and table. -/
theorem realize_eq_ok {m : Manifest} {groups : List PolicyGroup} :
    m.realize = .ok groups ↔
      m.groups ≠ [] ∧ List.Forall₂ GroupDraft.Realizes m.groups groups ∧
        ((groups.flatMap (·.policies)).map Policy.key).Nodup := by
  rw [realize]
  by_cases hempty : m.groups = []
  · simp [hempty]
  · rw [if_neg (by simpa using hempty), realizeGroups_eq_ok List.nodup_nil, List.nil_append]
    exact (and_iff_right hempty).symm

/-- The drafts of policies in a manifest, in order. -/
def policyDrafts (m : Manifest) : List PolicyDraft := m.groups.flatMap (·.policies)

/-- The policies of those drafts in a manifest that can be realized, in order. -/
def realized (m : Manifest) : List Policy :=
  m.policyDrafts.filterMap fun d => d.realize.toOption

/-- The policies of groups that are made of some drafts are those of the drafts. -/
theorem policies_of_realizes {drafts : List GroupDraft} {groups : List PolicyGroup}
    (h : List.Forall₂ GroupDraft.Realizes drafts groups) :
    List.Forall₂ (fun d p => d.realize = .ok p) (drafts.flatMap (·.policies))
      (groups.flatMap (·.policies)) := by
  induction h with
  | nil => exact .nil
  | cons hgroup _ ih => exact List.rel_append hgroup.policies ih

/-- Where each draft of a policy can be realized, so can the groups. -/
theorem exists_realizes {drafts : List GroupDraft} (hne : ∀ draft ∈ drafts, draft.policies ≠ [])
    (h : ∀ draft ∈ drafts, ∀ d ∈ draft.policies, ∃ p, d.realize = .ok p) :
    ∃ groups, List.Forall₂ GroupDraft.Realizes drafts groups := by
  induction drafts with
  | nil => exact ⟨[], .nil⟩
  | cons draft drafts ih =>
    rw [List.forall_mem_cons] at hne h
    obtain ⟨groups, hgroups⟩ := ih hne.2 h.2
    have hpolicies := forall₂_ok_iff.mpr ⟨h.1, rfl⟩
    exact ⟨⟨draft.name, _, draft.description⟩ :: groups, .cons ⟨rfl, rfl, hne.1, hpolicies⟩ hgroups⟩

/-- **Acceptance.** A manifest is accepted if and only if it has a group, each group has a
    policy, each draft of a policy can be realized, and the policies of all of them differ by
    table or name.  Then there is a group for each draft of a group, in order, with its name
    and its description and with the policies of its drafts, in order, each on the table that
    its draft names. -/
theorem accepts_iff (m : Manifest) :
    ((∃ groups, m.realize = .ok groups) ↔
      m.groups ≠ [] ∧ (∀ draft ∈ m.groups, draft.policies ≠ []) ∧
        (∀ d ∈ m.policyDrafts, ∃ p, d.realize = .ok p) ∧ (m.realized.map Policy.key).Nodup) ∧
    ∀ groups, m.realize = .ok groups →
      List.Forall₂ (fun (draft : GroupDraft) (group : PolicyGroup) =>
        group.name = draft.name ∧ group.description = draft.description ∧
          List.Forall₂ (fun d p => d.realize = .ok p ∧ p.table = d.table) draft.policies
            group.policies) m.groups groups := by
  constructor
  · constructor
    -- what the accepted run says about each group, read off for the drafts
    · rintro ⟨groups, h⟩
      obtain ⟨hgroups, hrealizes, hkeys⟩ := realize_eq_ok.mp h
      obtain ⟨hall, hpolicies⟩ := forall₂_ok_iff.mp (policies_of_realizes hrealizes)
      have hne : ∀ draft ∈ m.groups, draft.policies ≠ [] := by
        intro draft hdraft
        obtain ⟨group, -, hgroup⟩ := exists_of_mem_right hrealizes.flip hdraft
        exact hgroup.policies_ne_nil
      rw [hpolicies] at hkeys
      exact ⟨hgroups, hne, hall, hkeys⟩
    · rintro ⟨hgroups, hne, hall, hkeys⟩
      -- the groups are built first, and the keys compared last, as the acceptance itself does
      have hdrafts : ∀ draft ∈ m.groups, ∀ d ∈ draft.policies, ∃ p, d.realize = .ok p :=
        fun draft hdraft d hd => hall d (List.mem_flatMap.mpr ⟨draft, hdraft, hd⟩)
      obtain ⟨groups, hrealizes⟩ := exists_realizes hne hdrafts
      have hpolicies := (forall₂_ok_iff.mp (policies_of_realizes hrealizes)).2
      have hwhole : ((groups.flatMap (·.policies)).map Policy.key).Nodup := by
        rw [hpolicies]
        exact hkeys
      exact ⟨groups, realize_eq_ok.mpr ⟨hgroups, hrealizes, hwhole⟩⟩
  · intro groups h
    refine (realize_eq_ok.mp h).2.1.imp fun draft group hgroup => ?_
    exact ⟨hgroup.name_eq, hgroup.description_eq,
      hgroup.policies.imp fun d p hp => ⟨hp, PolicyDraft.table_realize hp⟩⟩

end Manifest

end RowPolicy
