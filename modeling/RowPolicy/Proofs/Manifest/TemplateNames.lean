import RowPolicy.Manifest.Policy
import RowPolicy.Proofs.Manifest.Acceptance
import RowPolicy.Proofs.Manifest.Described
import RowPolicy.Proofs.Manifest.FirstFault

namespace RowPolicy

/-!
# Several templates on one table

The name that a template gives a policy is made of the table and of what the template is about,
and a role stands in it as it is.  So a role can spell out the name of another template.  There
is one such role, and a manifest with both templates is refused unless one of the policies is
given a name of its own.

* `Template.rule_eq_iff` — which templates give one name;
* `PolicyDraft.key_realize` — the table and the name of a policy, read off its draft;
* `Manifest.realize_duplicate` — the two drafts for which a manifest is refused;
* `Manifest.templates_apart`, `Manifest.owner_clash` — templates that can be combined, and two
  that cannot.
-/

/-! ### Names of templates -/

namespace Template

/-- The kind of a template. -/
def kind : Template → Kind
  | userOwned .. => .userOwned
  | tenantIsolation .. => .tenantIsolation
  | publicAccess _ => .publicAccess
  | roleAccess .. => .roleAccess

/-- The role that a template is for, if it is for one. -/
def role? : Template → Option String
  | roleAccess role _ => some role
  | _ => none

/-- What the name of a policy says behind its table. -/
def rule : Template → String
  | userOwned .. => "owner_access"
  | tenantIsolation .. => "tenant_isolation"
  | publicAccess _ => "public_read"
  | roleAccess role _ => role ++ "_access"

/-- Two templates are of different kinds, or for different roles. -/
def Differs (a b : Template) : Prop := a.kind ≠ b.kind ∨ a.role? ≠ b.role?

/-- One template is for owners, and the other one is for users with the role of that name. -/
def OwnerRole (a b : Template) : Prop := a.kind = .userOwned ∧ b.role? = some "owner"

/-- Two templates that can stand on one table. -/
def Apart (a b : Template) : Prop := a.Differs b ∧ ¬ a.OwnerRole b ∧ ¬ b.OwnerRole a

instance (a b : Template) : Decidable (a.Differs b) :=
  inferInstanceAs (Decidable (_ ∨ _))

instance (a b : Template) : Decidable (a.OwnerRole b) :=
  inferInstanceAs (Decidable (_ ∧ _))

instance (a b : Template) : Decidable (a.Apart b) :=
  inferInstanceAs (Decidable (_ ∧ _))

/-- The name of a template's policy is that of the table, followed by the template's rule. -/
theorem policyName_eq (table : String) (a : Template) :
    a.policyName table = table ++ "_" ++ a.rule := by
  cases a with
  | userOwned => rw [String.append_assoc]; rfl
  | tenantIsolation => rw [String.append_assoc]; rfl
  | publicAccess => rw [String.append_assoc]; rfl
  | roleAccess role => rw [policyName, rule, String.append_assoc]

/-- On one table two templates share the name exactly if they have one rule. -/
theorem policyName_eq_iff {table : String} {a b : Template} :
    a.policyName table = b.policyName table ↔ a.rule = b.rule := by
  rw [policyName_eq, policyName_eq, String.append_right_inj]

/-- A role spells out no name that ends otherwise. -/
theorem role_ne {text : String} (h : ¬ "_access".toList <:+ text.toList) (role : String) :
    role ++ "_access" ≠ text := by
  rintro rfl
  rw [String.toList_append] at h
  exact h (List.suffix_append _ _)

/-- The rule of a role is that of an owner exactly for the role called owner. -/
theorem role_eq_owner_iff {role : String} :
    role ++ "_access" = "owner_access" ↔ role = "owner" := by
  have howner : "owner_access" = "owner" ++ "_access" := by decide
  rw [howner, String.append_left_inj]

/-- Two templates give the same name if they are of the same kind and for the same role, and
    where one is for the role that the other one's name spells out. -/
theorem rule_eq_iff {a b : Template} :
    a.rule = b.rule ↔ ¬ a.Differs b ∨ a.OwnerRole b ∨ b.OwnerRole a := by
  have htenant (role : String) : role ++ "_access" ≠ "tenant_isolation" := role_ne (by decide) role
  have hpublic (role : String) : role ++ "_access" ≠ "public_read" := role_ne (by decide) role
  cases a with
  | userOwned =>
    cases b with
    -- the owner against a role is the one pair that may clash
    | roleAccess role =>
      rw [rule, rule, eq_comm, role_eq_owner_iff]
      simp [Differs, OwnerRole, kind, role?]
    | _ => simp [rule, Differs, OwnerRole, kind, role?]
  | tenantIsolation =>
    cases b with
    | roleAccess role => simp [rule, Differs, OwnerRole, kind, role?, (htenant role).symm]
    | _ => simp [rule, Differs, OwnerRole, kind, role?]
  | publicAccess =>
    cases b with
    | roleAccess role => simp [rule, Differs, OwnerRole, kind, role?, (hpublic role).symm]
    | _ => simp [rule, Differs, OwnerRole, kind, role?]
  | roleAccess role =>
    cases b with
    | userOwned =>
      rw [rule, rule, role_eq_owner_iff]
      simp [Differs, OwnerRole, kind, role?]
    | tenantIsolation => simp [rule, Differs, OwnerRole, kind, role?, htenant role]
    | publicAccess => simp [rule, Differs, OwnerRole, kind, role?, hpublic role]
    | roleAccess other =>
      rw [rule, rule, String.append_left_inj]
      simp [Differs, OwnerRole, kind, role?]

/-- Templates that differ share the name of their policy only for the owner and the role so
    called. -/
theorem policyName_eq_iff_of_differs {table : String} {a b : Template} (h : a.Differs b) :
    a.policyName table = b.policyName table ↔ a.OwnerRole b ∨ b.OwnerRole a := by
  rw [policyName_eq_iff, rule_eq_iff]
  exact or_iff_right (not_not_intro h)

end Template

/-! ### What is refused before policies are compared -/

/-- No predicate is refused for being there twice. -/
theorem PredicateDraft.realize_ne_duplicate (d : PredicateDraft) (name table : String) :
    d.realize ≠ .error (.duplicatePolicy name table) := by
  intro h
  -- a refusal is one of the faults, none of which is about names
  have hfault := List.mem_of_mem_head? ((d.reports_realize.eq_error_iff _).mp h)
  obtain ⟨part, -, hfails⟩ := PredicateDraft.mem_faults.mp hfault
  cases part with
  | compare =>
    obtain ⟨n, -, -, hrefusal⟩ := hfails
    cases hrefusal
  | member =>
    obtain ⟨-, hrefusal⟩ | ⟨n, -, -, hrefusal⟩ | ⟨q, -, hscope⟩ := hfails
    · cases hrefusal
    · cases hrefusal
    · obtain ⟨j, -, -, hrefusal⟩ | ⟨p, -, -, hrefusal⟩ := hscope
      · cases hrefusal
      · cases hrefusal
  | group =>
    obtain ⟨-, hrefusal⟩ := hfails
    cases hrefusal
  | _ => exact hfails

namespace PolicyDraft

/-- A predicate of a policy is never refused for a name used twice. -/
theorem setting_ne_duplicate (setter : Predicate → Policy.Setter) (draft : Option PredicateDraft)
    (name table : String) : setting setter draft ≠ .error (.duplicatePolicy name table) := by
  intro h
  cases draft with
  | none => cases h
  | some d =>
    obtain hd | ⟨p, -, hreturn⟩ := bind_eq_error.mp h
    · exact d.realize_ne_duplicate name table hd
    · cases hreturn

/-- Nor is the policy a draft starts from. -/
theorem base_ne_duplicate (draft : PolicyDraft) (name table : String) :
    draft.base ≠ .error (.duplicatePolicy name table) := by
  intro h
  unfold base explicit predicates at h
  split at h
  · split at h
    · cases h
    · cases h
    · -- one of the three predicates is refused
      simp only [bind_eq_error, setting_ne_duplicate, pure, Except.pure, reduceCtorEq,
        and_false, exists_false, or_false] at h
  · split at h
    · cases h
    · cases h

/-- A draft alone is not refused for being there twice. -/
theorem realize_ne_duplicate (draft : PolicyDraft) (name table : String) :
    draft.realize ≠ .error (.duplicatePolicy name table) := by
  intro h
  obtain hbase | ⟨start, -, h⟩ := bind_eq_error.mp h
  · exact draft.base_ne_duplicate name table hbase
  · obtain hfault | ⟨policy, -, hreturn⟩ := bind_eq_error.mp h
    · obtain ⟨fault, -, hrefusal⟩ := mapError_eq_error.mp hfault
      cases hrefusal
    · cases hreturn

/-! ### Drafts and their policies -/

/-- The name of the policy of a draft: the draft's own one, or else that of its template. -/
def policyName? (draft : PolicyDraft) : Option String :=
  draft.name.or (draft.template.map (·.policyName draft.table))

/-- What tells the policy of a draft apart. -/
def key? (draft : PolicyDraft) : Option (String × String) :=
  draft.policyName?.map fun name => (draft.table, name)

/-- The template of a draft that has no name of its own. -/
def applied? (draft : PolicyDraft) : Option Template :=
  match draft.name with
  | none => draft.template
  | some _ => none

/-- The table and name a policy gets can be told from its draft. -/
theorem key_realize {draft : PolicyDraft} {policy : Policy} (h : draft.realize = .ok policy) :
    draft.key? = some policy.key := by
  have htable := table_realize h
  obtain ⟨start, settled, hbase, rfl, -, rfl⟩ := realize_eq_ok.mp h
  -- the name given, or else that of the template
  have hname : draft.policyName? = some (draft.name.getD (start.setAll draft.settings).name) := by
    rw [setAll_settings, policyName?]
    obtain ⟨template, htemplate, -, rfl⟩ | ⟨-, hexplicit⟩ := base_eq_ok.mp hbase
    · rw [htemplate]
      cases draft.name with
      | none => rfl
      | some name => rfl
    · obtain ⟨name, command, setters, hname, -⟩ := explicit_eq_ok.mp hexplicit
      rw [hname]
      rfl
  rw [key?, hname, ← htable]
  rfl

/-- A template that is applied is the draft's. -/
theorem template_applied {draft : PolicyDraft} {a : Template} (h : draft.applied? = some a) :
    draft.template = some a := by
  unfold applied? at h
  split at h
  · exact h
  · cases h

/-- A draft without a name has a policy with the name of its template. -/
theorem key_applied {draft : PolicyDraft} {a : Template} (h : draft.applied? = some a) :
    draft.key? = some (draft.table, a.policyName draft.table) := by
  unfold applied? at h
  split at h
  · rename_i hname
    rw [key?, policyName?, hname, h]
    rfl
  · cases h

/-- Two drafts that apply templates which can stand on one table, or on two tables. -/
def Apart (d e : PolicyDraft) : Prop :=
  ∃ a b, d.applied? = some a ∧ e.applied? = some b ∧ (d.table = e.table → a.Apart b)

/-- Drafts that are apart get policies with different keys. -/
theorem Apart.key_ne {d e : PolicyDraft} (h : d.Apart e) : d.key? ≠ e.key? := by
  obtain ⟨a, b, ha, hb, hapart⟩ := h
  rw [key_applied ha, key_applied hb]
  intro hkey
  obtain ⟨htable, hname⟩ := Prod.mk.inj (Option.some.inj hkey)
  obtain ⟨hdiffers, howner, hrole⟩ := hapart htable
  rw [htable, Template.policyName_eq_iff_of_differs hdiffers] at hname
  rcases hname with hname | hname
  · exact howner hname
  · exact hrole hname

/-- The draft that applies a template and says nothing else. -/
def ofTemplate (table : String) (template : Template) : PolicyDraft where
  table := table
  template := some template
  name := none
  command := none
  role := none
  usingExpr := none
  checkExpr := none
  allow := none
  restrictive := false
  description := none

end PolicyDraft

/-! ### Drafts of one policy -/

namespace Manifest

/-- Policies are refused for the first of them whose key was met before. -/
theorem register_eq_error {seen : List (String × String)} {policies : List Policy}
    {refusal : Refusal} (h : register seen policies = .error refusal) :
    ∃ before policy after, policies = before ++ policy :: after ∧
      refusal = .duplicatePolicy policy.name policy.table ∧
      policy.key ∈ seen ++ before.map Policy.key := by
  induction policies generalizing seen with
  | nil => cases h
  | cons policy policies ih =>
    rw [register, ← Policy.key] at h
    by_cases hmem : policy.key ∈ seen
    -- met before, so it is this policy
    · rw [if_pos hmem] at h
      cases h
      exact ⟨[], policy, policies, rfl, rfl, by simpa using hmem⟩
    -- new, so it is one behind
    · rw [if_neg hmem] at h
      obtain ⟨before, twice, after, rfl, hrefusal, hkey⟩ := ih h
      exact ⟨policy :: before, twice, after, rfl, hrefusal, by simpa using hkey⟩

/-- Policies have the keys their drafts announce. -/
theorem keys_eq {drafts : List PolicyDraft} {policies : List Policy}
    (h : List.Forall₂ (fun d p => d.realize = .ok p) drafts policies) :
    drafts.map PolicyDraft.key? = (policies.map Policy.key).map some := by
  induction h with
  | nil => rfl
  | cons hd _ ih => rw [List.map_cons, List.map_cons, List.map_cons, PolicyDraft.key_realize hd, ih]

/-- Groups are refused for a policy that is there twice if a draft has the key of a policy that
    was met before, or of another draft in front of it. -/
theorem realizeGroups_duplicate {seen : List (String × String)} (hseen : seen.Nodup)
    {drafts : List GroupDraft} {name table : String}
    (h : realizeGroups seen drafts = .error (.duplicatePolicy name table)) :
    ∃ before e after, drafts.flatMap (·.policies) = before ++ e :: after ∧
      e.key? = some (table, name) ∧
      some (table, name) ∈ seen.map some ++ before.map PolicyDraft.key? := by
  induction drafts generalizing seen with
  | nil => cases h
  | cons draft drafts ih =>
    rw [realizeGroups] at h
    split at h
    · cases h
    obtain hpolicies | ⟨policies, hpolicies, h⟩ := bind_eq_error.mp h
    · -- a draft of this group is refused by itself
      obtain ⟨-, d, -, -, -, hd⟩ := mapM_eq_error.mp hpolicies
      exact absurd hd (d.realize_ne_duplicate name table)
    have hkeys := keys_eq (mapM_eq_ok.mp hpolicies)
    obtain hregister | ⟨all, hregister, h⟩ := bind_eq_error.mp h
    · -- a policy of this group was met before
      obtain ⟨before, policy, after, rfl, hrefusal, hkey⟩ := register_eq_error hregister
      cases hrefusal
      rw [List.map_append, List.map_append, List.map_cons, List.map_cons,
        List.map_eq_append_iff] at hkeys
      obtain ⟨front, rest, hdrafts, hfront, hrest⟩ := hkeys
      obtain ⟨e, back, rfl, he, -⟩ := List.map_eq_cons_iff.mp hrest
      refine ⟨front, e, back ++ drafts.flatMap (·.policies), ?_, he, ?_⟩
      · rw [List.flatMap_cons, hdrafts, List.append_assoc, List.cons_append]
      · rw [hfront, ← List.map_append]
        exact List.mem_map_of_mem hkey
    · -- the groups behind this one are refused
      obtain ⟨rfl, hnodup⟩ := (register_eq_ok hseen).mp hregister
      obtain hgroups | ⟨groups, -, hreturn⟩ := bind_eq_error.mp h
      · obtain ⟨before, e, after, hdrafts, he, hmem⟩ := ih hnodup hgroups
        refine ⟨draft.policies ++ before, e, after, ?_, he, ?_⟩
        · rw [List.flatMap_cons, hdrafts, List.append_assoc]
        · rw [List.map_append, ← List.append_assoc, hkeys, ← List.map_append]
          exact hmem
      · cases hreturn

/-- A manifest that is refused for a policy that is there twice has two drafts of it. -/
theorem realize_duplicate {m : Manifest} {name table : String}
    (h : m.realize = .error (.duplicatePolicy name table)) :
    ∃ before e after, m.policyDrafts = before ++ e :: after ∧ e.key? = some (table, name) ∧
      ∃ d ∈ before, d.key? = some (table, name) := by
  unfold realize at h
  split at h
  · cases h
  · obtain ⟨before, e, after, hdrafts, he, hmem⟩ := realizeGroups_duplicate List.nodup_nil h
    exact ⟨before, e, after, hdrafts, he, List.mem_map.mp hmem⟩

/-- Where drafts are apart, so are their policies. -/
theorem nodup_keys_of_apart {drafts : List PolicyDraft} {policies : List Policy}
    (hapart : drafts.Pairwise PolicyDraft.Apart)
    (h : List.Forall₂ (fun d p => d.realize = .ok p) drafts policies) :
    (policies.map Policy.key).Nodup := by
  have hkeys : (drafts.map PolicyDraft.key?).Nodup :=
    List.pairwise_map.mpr (hapart.imp PolicyDraft.Apart.key_ne)
  rw [keys_eq h] at hkeys
  exact hkeys.of_map

/-- **Several templates on one table.** Templates of different kinds, or for different roles, give
    policies with different names, unless one is for owners and the other for a role that is
    called `owner`.  Where a manifest is refused for a policy that is there twice, two of its
    drafts give a policy this name on this table; and if both apply templates that differ,
    under the names of the templates, then they are those two.  So a manifest is not refused for
    it if its drafts apply templates that are apart where they are on one table: it is
    accepted if it has groups, none of them without policies, and no draft says what its
    template says. -/
theorem templates_apart :
    (∀ (table : String) (a b : Template), a.Differs b →
      (a.policyName table = b.policyName table ↔ a.OwnerRole b ∨ b.OwnerRole a)) ∧
    ∀ m : Manifest,
      (∀ name table, m.realize = .error (.duplicatePolicy name table) →
        ∃ before e after, m.policyDrafts = before ++ e :: after ∧ e.key? = some (table, name) ∧
          ∃ d ∈ before, d.key? = some (table, name) ∧
            ∀ a b, d.applied? = some a → e.applied? = some b → a.Differs b →
              a.OwnerRole b ∨ b.OwnerRole a) ∧
      (m.policyDrafts.Pairwise PolicyDraft.Apart →
        (∀ name table, m.realize ≠ .error (.duplicatePolicy name table)) ∧
        (m.groups ≠ [] → (∀ draft ∈ m.groups, draft.policies ≠ []) →
          (∀ d ∈ m.policyDrafts, (∃ a, d.applied? = some a) ∧ d.overlapsTemplate = false) →
          ∃ groups, m.realize = .ok groups)) := by
  refine ⟨fun table a b => Template.policyName_eq_iff_of_differs, fun m => ⟨?_, ?_⟩⟩
  · intro name table h
    -- the clash gives two drafts with one key, which a pair without the role called owner lacks
    obtain ⟨before, e, after, hdrafts, he, d, hd, hkey⟩ := realize_duplicate h
    refine ⟨before, e, after, hdrafts, he, d, hd, hkey, fun a b ha hb hdiffers => ?_⟩
    by_contra hclash
    rw [not_or] at hclash
    -- templates that differ and are not this pair are apart, and so are their keys
    have hapart : d.Apart e := ⟨a, b, ha, hb, fun _ => ⟨hdiffers, hclash⟩⟩
    exact hapart.key_ne (hkey.trans he.symm)
  · intro hapart
    constructor
    · intro name table h
      obtain ⟨before, e, after, hdrafts, he, d, hd, hkey⟩ := realize_duplicate h
      rw [hdrafts, List.pairwise_append] at hapart
      exact (hapart.2.2 d hd e List.mem_cons_self).key_ne (hkey.trans he.symm)
    -- templates leave no other reason for a refusal
    · intro hgroups hpolicies htemplates
      have hrealize : ∀ draft ∈ m.groups, ∀ d ∈ draft.policies, ∃ p, d.realize = .ok p := by
        intro draft hdraft d hd
        obtain ⟨⟨a, ha⟩, hoverlap⟩ := htemplates d (List.mem_flatMap.mpr ⟨draft, hdraft, hd⟩)
        exact ⟨_, PolicyDraft.realize_template (PolicyDraft.template_applied ha) hoverlap⟩
      obtain ⟨groups, hrealizes⟩ := exists_realizes hpolicies hrealize
      have hnodup := nodup_keys_of_apart hapart (policies_of_realizes hrealizes)
      exact ⟨groups, realize_eq_ok.mpr ⟨hgroups, hrealizes, hnodup⟩⟩

/-- All four kinds of templates on one table, one of them twice, for two roles. -/
theorem templates_apart_all_kinds :
    let templates : List Template :=
      [.userOwned "user_id" .all, .tenantIsolation "tenant_id" "app.tenant", .publicAccess "public",
        .roleAccess "editor" .all, .roleAccess "viewer" .select]
    let m : Manifest := ⟨[⟨"g", none, templates.map (PolicyDraft.ofTemplate "t")⟩]⟩
    templates.map (·.policyName "t") = ["t_owner_access", "t_tenant_isolation", "t_public_read",
        "t_editor_access", "t_viewer_access"] ∧
      templates.Pairwise Template.Apart ∧ ∃ groups, m.realize = .ok groups := by
  intro templates m
  -- the four rules and both roles are compared pair by pair
  have htemplates : templates.Pairwise Template.Apart := by decide
  have hapart : m.policyDrafts.Pairwise PolicyDraft.Apart := by
    show (templates.map (PolicyDraft.ofTemplate "t") ++ []).Pairwise PolicyDraft.Apart
    rw [List.append_nil, List.pairwise_map]
    exact htemplates.imp fun {a b} h => ⟨a, b, rfl, rfl, fun _ => h⟩
  have hgroups := ((templates_apart.2 m).2 hapart).2
  refine ⟨by decide, htemplates, hgroups (by simp [m]) (by simp [m, templates]) fun d hd => ?_⟩
  simp only [policyDrafts, m, List.flatMap_cons, List.flatMap_nil, List.append_nil,
    List.mem_map] at hd
  obtain ⟨a, -, rfl⟩ := hd
  exact ⟨⟨a, rfl⟩, rfl⟩

/-- The two templates that do not go together. -/
theorem owner_clash :
    let owned : Template := .userOwned "user_id" .all
    let role : Template := .roleAccess "owner" .all
    let m : Manifest :=
      ⟨[⟨"g", none, [PolicyDraft.ofTemplate "t" owned, PolicyDraft.ofTemplate "t" role]⟩]⟩
    owned.Differs role ∧ owned.policyName "t" = role.policyName "t" ∧
      m.realize = .error (.duplicatePolicy "t_owner_access" "t") ∧
      (¬ ∀ (table : String) (a b : Template), a.Differs b →
        a.policyName table ≠ b.policyName table) ∧
      ¬ ∀ m : Manifest, m.policyDrafts.Pairwise
          (fun d e => ∃ a b, d.applied? = some a ∧ e.applied? = some b ∧ a.Differs b) →
        ∀ name table, m.realize ≠ .error (.duplicatePolicy name table) := by
  intro owned role m
  have hdiffers : owned.Differs role := by decide
  have hname : owned.policyName "t" = role.policyName "t" := by decide
  have hrefused : m.realize = .error (.duplicatePolicy "t_owner_access" "t") := rfl
  have hpair : m.policyDrafts.Pairwise
      (fun d e => ∃ a b, d.applied? = some a ∧ e.applied? = some b ∧ a.Differs b) :=
    List.pairwise_pair.mpr ⟨owned, role, rfl, rfl, hdiffers⟩
  exact ⟨hdiffers, hname, hrefused, fun hall => hall "t" owned role hdiffers hname,
    fun hall => hall m hpair _ _ hrefused⟩

end Manifest

end RowPolicy
