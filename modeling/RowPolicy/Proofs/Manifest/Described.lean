import RowPolicy.Proofs.Policy.Settings

namespace RowPolicy

/-!
# The policy that a draft describes

A draft of a policy is realized by settings: first its predicates, then what every draft may
say.  Since the last setting counts, each part of the policy can be read off the draft:

* `PolicyDraft.Yields` — the predicate that a part of a draft is realized as, if it is there;
* `PolicyDraft.predicates_eq_ok_iff`, `PolicyDraft.setAll_predicates` — which predicates a draft
  sets, and the clauses they end up in;
* `PolicyDraft.setAll_settings` — what the other settings of a draft leave;
* `PolicyDraft.described` — a policy whose clauses are known, with all the rest from its draft;
* `PolicyDraft.realize_described` — when a draft is realized, and the policy that it becomes.
-/

namespace PolicyDraft

open Policy (lastOf lastOf_append lastOf_singleton)

/-! ### Predicates -/

/-- A draft of a predicate that may be left out is realized as a predicate, or there is
    neither. -/
def Yields (draft : Option PredicateDraft) (p : Option Predicate) : Prop :=
  Option.Rel (fun d q => d.realize = .ok q) draft p

/-- A draft's predicate becomes at most one setter:  the one for the predicate the draft yields, if
    it has any. -/
theorem setting_eq_ok_iff {setter : Predicate → Policy.Setter} {draft : Option PredicateDraft}
    {setters : List Policy.Setter} :
    setting setter draft = .ok setters ↔ ∃ p, Yields draft p ∧ setters = (p.map setter).toList := by
  rw [setting_eq_ok]
  constructor
  · rintro (⟨rfl, rfl⟩ | ⟨d, p, rfl, hp, rfl⟩)
    · exact ⟨none, .none, rfl⟩
    · exact ⟨some p, .some hp, rfl⟩
  · rintro ⟨_, ⟨hp⟩ | _, rfl⟩
    · exact .inr ⟨_, _, rfl, hp, rfl⟩
    · exact .inl ⟨rfl, rfl⟩

/-- The settings that three predicates make, in the order in which a draft makes them. -/
def predicateSetters (allow found written : Option Predicate) : List Policy.Setter :=
  (allow.map .allow).toList ++ (found.map .rowsFound).toList ++ (written.map .rowsWritten).toList

/-- The setters a draft's three predicates become, found when each of the three is realized. -/
theorem predicates_eq_ok_iff {draft : PolicyDraft} {setters : List Policy.Setter} :
    draft.predicates = .ok setters ↔
      ∃ allow found written, Yields draft.allow allow ∧ Yields draft.usingExpr found ∧
        Yields draft.checkExpr written ∧ setters = predicateSetters allow found written := by
  rw [predicates_eq_ok]
  simp only [setting_eq_ok_iff]
  constructor
  · rintro ⟨_, _, _, ⟨allow, hallow, rfl⟩, ⟨found, hfound, rfl⟩, ⟨written, hwritten, rfl⟩, rfl⟩
    exact ⟨allow, found, written, hallow, hfound, hwritten, rfl⟩
  · rintro ⟨allow, found, written, hallow, hfound, hwritten, rfl⟩
    exact ⟨_, _, _, ⟨allow, hallow, rfl⟩, ⟨found, hfound, rfl⟩, ⟨written, hwritten, rfl⟩, rfl⟩

/-- The predicate of a clause: its own one, or else the one for all clauses if the clause is
    evaluated. -/
def clause (own allow : Option Predicate) (evaluated : Bool) : Option Predicate :=
  own.or (if evaluated then allow else none)

/-- What the settings of three predicates say about a part of a policy. -/
theorem lastOf_predicateSetters {α : Type} (part : Policy.Setter → Option α)
    (allow found written : Option Predicate) :
    lastOf part (predicateSetters allow found written) =
      (written.bind fun p => part (.rowsWritten p)).or
        ((found.bind fun p => part (.rowsFound p)).or (allow.bind fun p => part (.allow p))) := by
  have hone (setter : Predicate → Policy.Setter) (q : Option Predicate) :
      lastOf part (q.map setter).toList = q.bind fun p => part (setter p) := by
    cases q with
    | none => rfl
    | some p => exact lastOf_singleton part (setter p)
  rw [predicateSetters, lastOf_append, lastOf_append, hone, hone, hone]

/-- The predicates of a draft end up in their own clauses, and where a clause has none it gets
    the one for all clauses. -/
theorem setAll_predicates (name table : String) (command : Command)
    (allow found written : Option Predicate) :
    (Policy.start name table command).setAll (predicateSetters allow found written) =
      { Policy.start name table command with
        usingExpr := clause found allow command.usesUsing
        checkExpr := clause written allow command.usesCheck } := by
  -- each of the two clauses is the last setter that reaches it, by the command's side
  have husing : lastOf (Policy.Setter.found? command) (predicateSetters allow found written) =
      clause found allow command.usesUsing := by
    rw [lastOf_predicateSetters, clause]
    cases h : command.usesUsing <;> cases allow <;> simp [Policy.Setter.found?, h]
  have hcheck : lastOf (Policy.Setter.written? command) (predicateSetters allow found written) =
      clause written allow command.usesCheck := by
    rw [lastOf_predicateSetters, clause]
    cases h : command.usesCheck <;> cases allow <;> simp [Policy.Setter.written?, h]
  -- the remaining fields are left as they started, as no predicate sets them
  have hrole : lastOf Policy.Setter.role? (predicateSetters allow found written) = none := by
    simp [lastOf_predicateSetters, Policy.Setter.role?]
  have hdescription :
      lastOf Policy.Setter.description? (predicateSetters allow found written) = none := by
    simp [lastOf_predicateSetters, Policy.Setter.description?]
  have hrestrictive :
      (predicateSetters allow found written).any Policy.Setter.isRestrictive = false := by
    simp [predicateSetters, Policy.Setter.isRestrictive]
  rw [Policy.setAll_eq]
  simp only [Policy.start, husing, hcheck, hrole, hdescription, hrestrictive, Option.or_none,
    Bool.or_false]

/-! ### Other settings -/

/-- What every draft may say replaces what was said before, where the draft says anything. -/
theorem setAll_settings (draft : PolicyDraft) (policy : Policy) :
    policy.setAll draft.settings =
      { policy with
        role := draft.role.or policy.role
        restrictive := policy.restrictive || draft.restrictive
        description := draft.description.or policy.description } := by
  rcases draft with ⟨_, _, _, _, role, _, _, _, restrictive, description⟩
  cases role <;> cases restrictive <;> cases description <;>
    simp [settings, Policy.setAll, Policy.set]

/-! ### The whole policy -/

/-- The policy with some name, command and clauses that has all the rest from a draft. -/
def described (draft : PolicyDraft) (name : String) (command : Command)
    (usingExpr checkExpr : Option Predicate) : Policy where
  name := name
  table := draft.table
  command := command
  role := draft.role
  usingExpr := usingExpr
  checkExpr := checkExpr
  restrictive := draft.restrictive
  description := draft.description

/-- A draft without a template, before its settings. -/
theorem explicit_eq_ok_iff {draft : PolicyDraft} {policy : Policy} :
    draft.explicit = .ok policy ↔
      ∃ name command allow found written, draft.name = some name ∧ draft.command = some command ∧
        Yields draft.allow allow ∧ Yields draft.usingExpr found ∧ Yields draft.checkExpr written ∧
        policy = { Policy.start name draft.table command with
          usingExpr := clause found allow command.usesUsing
          checkExpr := clause written allow command.usesCheck } := by
  rw [explicit_eq_ok]
  simp only [predicates_eq_ok_iff]
  constructor
  · rintro ⟨name, command, _, hname, hcommand,
      ⟨allow, found, written, hallow, hfound, hwritten, rfl⟩, rfl⟩
    exact ⟨name, command, allow, found, written, hname, hcommand, hallow, hfound, hwritten,
      setAll_predicates name draft.table command allow found written⟩
  · rintro ⟨name, command, allow, found, written, hname, hcommand, hallow, hfound, hwritten, rfl⟩
    exact ⟨name, command, _, hname, hcommand,
      ⟨allow, found, written, hallow, hfound, hwritten, rfl⟩,
      (setAll_predicates name draft.table command allow found written).symm⟩

/-- A template applies if the draft sets nothing that the template sets. -/
theorem realize_template {draft : PolicyDraft} {template : Template}
    (htemplate : draft.template = some template) (hoverlap : draft.overlapsTemplate = false) :
    draft.realize = .ok (draft.described (draft.name.getD (template.policy draft.table).name)
      (template.policy draft.table).command (template.policy draft.table).usingExpr
      (template.policy draft.table).checkExpr) := by
  have hbase : draft.base = .ok (template.policy draft.table) :=
    base_eq_ok.mpr (.inl ⟨template, htemplate, hoverlap, rfl⟩)
  -- every command evaluates one of the two clauses
  have hclause : (template.policy draft.table).HasClause := by
    cases hcommand : template.command <;>
      simp [Template.policy, Policy.allow, Policy.start, Policy.HasClause, hcommand,
        Command.usesUsing, Command.usesCheck]
  refine realize_eq_ok.mpr ⟨_, _, hbase, rfl, ?_, ?_⟩
  · rw [setAll_settings]
    exact hclause
  · rw [setAll_settings]
    simp [described, Template.policy, Policy.allow, Policy.start]

/-- A template beside fields of its own is refused, and the refusal names the table. -/
theorem realize_overlap {draft : PolicyDraft} {template : Template}
    (htemplate : draft.template = some template) (hoverlap : draft.overlapsTemplate = true) :
    draft.realize = .error (.templateConflict draft.table) := by
  have hbase : draft.base = .error (.templateConflict draft.table) := by
    rw [base, htemplate]
    exact if_pos hoverlap
  rw [realize, hbase]
  rfl

/-- A draft without a template is realized if it has a name, a command and predicates that can
    be realized, and some clause gets one of them. -/
theorem realize_explicit {draft : PolicyDraft} (htemplate : draft.template = none)
    {policy : Policy} :
    draft.realize = .ok policy ↔
      ∃ name command allow found written, draft.name = some name ∧ draft.command = some command ∧
        Yields draft.allow allow ∧ Yields draft.usingExpr found ∧ Yields draft.checkExpr written ∧
        policy = draft.described name command (clause found allow command.usesUsing)
          (clause written allow command.usesCheck) ∧
        policy.HasClause := by
  -- without a template the start is the explicit one, whose fields are known
  have hbase (start : Policy) : draft.base = .ok start ↔ draft.explicit = .ok start := by
    rw [base, htemplate]
  rw [realize_eq_ok]
  simp only [hbase, explicit_eq_ok_iff, setAll_settings]
  constructor
  · rintro ⟨_, _, ⟨name, command, allow, found, written, hname, hcommand, hallow, hfound,
      hwritten, rfl⟩, rfl, hclause, rfl⟩
    refine ⟨name, command, allow, found, written, hname, hcommand, hallow, hfound, hwritten, ?_,
      hclause⟩
    simp [described, Policy.start, hname]
  · rintro ⟨name, command, allow, found, written, hname, hcommand, hallow, hfound, hwritten, rfl,
      hclause⟩
    refine ⟨_, _, ⟨name, command, allow, found, written, hname, hcommand, hallow, hfound,
      hwritten, rfl⟩, rfl, hclause, ?_⟩
    simp [described, Policy.start, hname]

/-- **What drafts become.** A draft with a template is refused for it exactly if it sets a command
    or a predicate as well; otherwise it becomes the policy of the template.  A draft without one
    is realized exactly if it has a name and a command, each predicate that it gives can be
    realized, whether it comes to matter or not, and some clause has a predicate.  A clause has
    its own predicate if the draft gives one, or else the one for all clauses if the command
    evaluates it.  Either way the policy is on the draft's table, with the draft's role,
    description and restrictiveness, and with its name if there is one. -/
theorem realize_described (draft : PolicyDraft) :
    (∀ template, draft.template = some template →
      (draft.realize = .error (.templateConflict draft.table) ↔
        draft.command.isSome ∨ draft.usingExpr.isSome ∨ draft.checkExpr.isSome ∨
          draft.allow.isSome) ∧
      (¬ (draft.command.isSome ∨ draft.usingExpr.isSome ∨ draft.checkExpr.isSome ∨
          draft.allow.isSome) →
        let applied := template.policy draft.table
        draft.realize = .ok (draft.described (draft.name.getD applied.name) applied.command
          applied.usingExpr applied.checkExpr))) ∧
    (draft.template = none → ∀ policy, draft.realize = .ok policy ↔
      ∃ name command allow found written, draft.name = some name ∧ draft.command = some command ∧
        Yields draft.allow allow ∧ Yields draft.usingExpr found ∧ Yields draft.checkExpr written ∧
        policy = draft.described name command (clause found allow command.usesUsing)
          (clause written allow command.usesCheck) ∧
        policy.HasClause) := by
  -- the four fields that a template has a value for itself
  have hoverlap : draft.overlapsTemplate = true ↔ draft.command.isSome ∨ draft.usingExpr.isSome ∨
      draft.checkExpr.isSome ∨ draft.allow.isSome := by
    simp [overlapsTemplate, or_assoc]
  rw [← hoverlap]
  refine ⟨fun template htemplate =>
      ⟨⟨fun herror => ?_, realize_overlap htemplate⟩, fun hnone => ?_⟩,
    fun htemplate policy => realize_explicit htemplate⟩
  -- refused only for the overlap, as the draft would be realized without it
  · by_contra hnone
    rw [realize_template htemplate (by simpa using hnone)] at herror
    cases herror
  · exact realize_template htemplate (by simpa using hnone)

/-- A template for an `UPDATE` with a role, alone and with a predicate of its own, and a draft
    whose predicate for all clauses is overridden in one of them. -/
theorem realize_described_overridden :
    let a : PredicateDraft := .null "a" .isNull
    let bare : PolicyDraft :=
      { table := "t", template := none, name := none, command := none, role := some "r",
        usingExpr := none, checkExpr := none, allow := none, restrictive := true,
        description := none }
    let templated := { bare with template := some (.userOwned "c" .update) }
    let explicit :=
      { bare with name := some "p", command := some .update, allow := some a,
                  usingExpr := some (.null "b" .isNull) }
    templated.realize = .ok (bare.described "t_owner_access" .update (some (.isOwner "c"))
      (some (.isOwner "c"))) ∧
    { templated with allow := some a }.realize = .error (.templateConflict "t") ∧
    explicit.realize = .ok (bare.described "p" .update (some (.null "b" .isNull))
      (some (.null "a" .isNull))) := by
  intro a bare templated explicit
  obtain ⟨htemplated, -⟩ := realize_described templated
  obtain ⟨hconflict, -⟩ := realize_described { templated with allow := some a }
  obtain ⟨-, hexplicit⟩ := realize_described explicit
  refine ⟨(htemplated _ rfl).2 (by decide), (hconflict _ rfl).1.mpr (.inr (.inr (.inr rfl))), ?_⟩
  exact (hexplicit rfl _).mpr
    ⟨"p", .update, some (.null "a" .isNull), some (.null "b" .isNull), none, rfl, rfl, .some rfl,
      .some rfl, .none, rfl, .inl rfl⟩

end PolicyDraft

end RowPolicy
