import RowPolicy.Manifest.Realize
import RowPolicy.Proofs.Success

namespace RowPolicy

/-!
# What realized drafts are made of

Each step of realizing a policy, read backwards: from a policy to the draft it can
have come from.

* `PredicateDraft.realizes_cons_eq_ok` and its like — the first of some drafts, and the others;
* `Policy.validate_eq_ok` — a policy that is accepted is the policy itself;
* `PolicyDraft.setting_eq_ok`, `PolicyDraft.predicates_eq_ok` — where the settings of
  a draft come from;
* `PolicyDraft.base_eq_ok`, `PolicyDraft.realize_eq_ok` — the policy of a draft, before
  its settings and behind them;
* `GroupDraft.Realizes`, `Manifest.realizes_of_ok` — groups and manifests.
-/

/-! ### Drafts in a list -/

/-- Operands are realized from the first one on. -/
theorem OperandDraft.realizes_cons_eq_ok {d : OperandDraft} {ds : List OperandDraft}
    {vs : List Operand} : realizes (d :: ds) = .ok vs ↔
      ∃ v, d.realize = .ok v ∧ ∃ rest, realizes ds = .ok rest ∧ v :: rest = vs := by
  simp only [realizes, bind_eq_ok, pure_eq_ok]

/-- Predicates are realized from the first one on. -/
theorem PredicateDraft.realizes_cons_eq_ok {d : PredicateDraft} {ds : List PredicateDraft}
    {ps : List Predicate} : realizes (d :: ds) = .ok ps ↔
      ∃ p, d.realize = .ok p ∧ ∃ rest, realizes ds = .ok rest ∧ p :: rest = ps := by
  simp only [realizes, bind_eq_ok, pure_eq_ok]

/-- Arguments are realized from the first one on. -/
theorem ArgumentDraft.realizes_cons_eq_ok {d : ArgumentDraft} {ds : List ArgumentDraft}
    {as : List Argument} : realizes (d :: ds) = .ok as ↔
      ∃ a, d.realize = .ok a ∧ ∃ rest, realizes ds = .ok rest ∧ a :: rest = as := by
  simp only [realizes, bind_eq_ok, pure_eq_ok]

/-! ### Policies -/

/-- A policy is valid exactly if it has one of the two clauses, and is accepted as it is. -/
theorem Policy.validate_eq_ok {policy accepted : Policy} :
    policy.validate = .ok accepted ↔
      (policy.usingExpr.isSome ∨ policy.checkExpr.isSome) ∧ accepted = policy := by
  unfold validate
  -- the refusal is for having neither
  split
  · rename_i h
    rw [Bool.and_eq_true, Option.isNone_iff_eq_none, Option.isNone_iff_eq_none] at h
    simp [h.1, h.2]
  · rename_i h
    have hclause : policy.usingExpr.isSome ∨ policy.checkExpr.isSome := by
      cases husing : policy.usingExpr <;> cases hcheck : policy.checkExpr <;> simp_all
    rw [Except.ok.injEq, and_iff_right hclause]
    exact eq_comm

namespace PolicyDraft

/-- A draft's predicate that is missing sets nothing, and one that is realized is set. -/
theorem setting_eq_ok {setter : Predicate → Policy.Setter} {draft : Option PredicateDraft}
    {setters : List Policy.Setter} :
    setting setter draft = .ok setters ↔
      (draft = none ∧ setters = []) ∨
        ∃ d p, draft = some d ∧ d.realize = .ok p ∧ setters = [setter p] := by
  cases draft with
  | none => simp [setting, eq_comm]
  | some d =>
    simp [setting, map_eq_ok]

/-- The predicates of a draft are realized in a fixed order:  the shared one, then that of the rows
    found and that of the rows written. -/
theorem predicates_eq_ok {draft : PolicyDraft} {setters : List Policy.Setter} :
    draft.predicates = .ok setters ↔
      ∃ allow found written, setting .allow draft.allow = .ok allow ∧
        setting .rowsFound draft.usingExpr = .ok found ∧
        setting .rowsWritten draft.checkExpr = .ok written ∧
        setters = allow ++ found ++ written := by
  unfold predicates
  simp only [bind_eq_ok, pure_eq_ok, eq_comm (b := setters)]
  constructor
  · rintro ⟨allow, hallow, found, hfound, written, hwritten, h⟩
    exact ⟨allow, found, written, hallow, hfound, hwritten, h⟩
  · rintro ⟨allow, found, written, hallow, hfound, hwritten, h⟩
    exact ⟨allow, hallow, found, hfound, written, hwritten, h⟩

/-- A draft without a template needs a name and a command, and then sets its predicates. -/
theorem explicit_eq_ok {draft : PolicyDraft} {policy : Policy} :
    draft.explicit = .ok policy ↔
      ∃ name command setters, draft.name = some name ∧ draft.command = some command ∧
        draft.predicates = .ok setters ∧
        policy = (Policy.start name draft.table command).setAll setters := by
  unfold explicit
  cases hname : draft.name with
  | none => simp
  | some name =>
    cases hcommand : draft.command with
    | none => simp
    | some command => simp [map_eq_ok]

/-- The policy of a draft before its settings: that of its template, or a policy with
    the name, the command and the predicates of the draft. -/
theorem base_eq_ok {draft : PolicyDraft} {policy : Policy} :
    draft.base = .ok policy ↔
      (∃ template, draft.template = some template ∧ draft.overlapsTemplate = false ∧
        policy = template.policy draft.table) ∨
      (draft.template = none ∧ draft.explicit = .ok policy) := by
  unfold base
  cases htemplate : draft.template with
  | none => simp
  | some template =>
    cases hoverlap : draft.overlapsTemplate with
    | true => simp
    | false => simp [eq_comm]

/-- The policy of a draft: it has a predicate, and the name of the draft if there is
    one. -/
theorem realize_eq_ok {draft : PolicyDraft} {policy : Policy} :
    draft.realize = .ok policy ↔
      ∃ start settled, draft.base = .ok start ∧ settled = start.setAll draft.settings ∧
        (settled.usingExpr.isSome ∨ settled.checkExpr.isSome) ∧
        policy = { settled with name := draft.name.getD settled.name } := by
  unfold realize
  simp only [bind_eq_ok, mapError_eq_ok, Policy.validate_eq_ok, pure_eq_ok]
  constructor
  · rintro ⟨start, hstart, settled, ⟨hclause, hsettled⟩, h⟩
    exact ⟨start, settled, hstart, hsettled, hsettled ▸ hclause, h.symm⟩
  · rintro ⟨start, settled, hstart, hsettled, hclause, h⟩
    exact ⟨start, hstart, settled, ⟨hsettled ▸ hclause, hsettled⟩, h.symm⟩

end PolicyDraft

/-! ### Groups -/

/-- What realizing makes of a draft of a group. -/
structure GroupDraft.Realizes (draft : GroupDraft) (group : PolicyGroup) : Prop where
  name_eq : group.name = draft.name
  description_eq : group.description = draft.description
  policies_ne_nil : draft.policies ≠ []
  policies : List.Forall₂ (fun d p => d.realize = .ok p) draft.policies group.policies

/-- A group that is realized has a policy. -/
theorem GroupDraft.Realizes.ne_nil {draft : GroupDraft} {group : PolicyGroup}
    (h : draft.Realizes group) : group.policies ≠ [] := by
  intro hnil
  have hpolicies := h.policies
  rw [hnil, List.forall₂_nil_right_iff] at hpolicies
  exact h.policies_ne_nil hpolicies

namespace Manifest

/-- The groups of some drafts come from the drafts, one by one. -/
theorem forall₂_of_realizeGroups {seen : List (String × String)} {drafts : List GroupDraft}
    {groups : List PolicyGroup} (h : realizeGroups seen drafts = .ok groups) :
    List.Forall₂ GroupDraft.Realizes drafts groups := by
  induction drafts generalizing seen groups with
  | nil =>
    cases h
    exact .nil
  | cons draft drafts ih =>
    rw [realizeGroups] at h
    split at h
    · cases h
    · rename_i hne
      simp only [bind_eq_ok, pure_eq_ok] at h
      -- registering may refuse the group, but changes nothing in it
      obtain ⟨policies, hpolicies, seen, -, groups, hgroups, rfl⟩ := h
      exact .cons ⟨rfl, rfl, by simpa using hne, mapM_eq_ok.mp hpolicies⟩ (ih hgroups)

/-- A manifest with groups is realized group by group. -/
theorem realizes_of_ok {m : Manifest} {groups : List PolicyGroup} (h : m.realize = .ok groups) :
    m.groups ≠ [] ∧ List.Forall₂ GroupDraft.Realizes m.groups groups := by
  unfold realize at h
  split at h
  · cases h
  · rename_i hne
    exact ⟨by simpa using hne, forall₂_of_realizeGroups h⟩

end Manifest

end RowPolicy
