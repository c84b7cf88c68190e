import RowPolicy.Proofs.Policy.Settings

namespace RowPolicy

/-!
# Clauses that a command evaluates

The database refuses a policy with a clause that its command has no use for: an
`INSERT` finds no rows, a `SELECT` and a `DELETE` write none.

* `Policy.ClausesFit` — a policy has only clauses that its command evaluates;
* `Policy.Setter.Fits`, `PolicyDraft.Fits` — the settings and the drafts that ask
  for no others;
* `Policy.setAll_clauses` — which clauses a policy has after a run of settings;
* `Policy.clausesFit_iff` — nothing but the two settings of a single clause can put
  a clause where it does not belong, and they do so freely.
-/

namespace Policy

/-- Each clause of a policy is one that its command evaluates. -/
def ClausesFit (policy : Policy) : Prop :=
  (policy.usingExpr.isSome → policy.command.usesUsing) ∧
    (policy.checkExpr.isSome → policy.command.usesCheck)

/-! ### Settings -/

namespace Setter

/-- Whether a setting gives a policy for a command a `USING` predicate. -/
def setsUsing (command : Command) : Setter → Bool
  | rowsFound _ => true
  | allow _ => command.usesUsing
  | _ => false

/-- Whether a setting gives a policy for a command a `WITH CHECK` predicate. -/
def setsCheck (command : Command) : Setter → Bool
  | rowsWritten _ => true
  | allow _ => command.usesCheck
  | _ => false

/-- A setting of a single clause fits a command that evaluates this clause, and
    every other setting fits every command. -/
def Fits (command : Command) : Setter → Prop
  | rowsFound _ => command.usesUsing
  | rowsWritten _ => command.usesCheck
  | _ => True

/-- A setter sets the predicate of the rows found exactly if it has one for it. -/
theorem isSome_found? (command : Command) (s : Setter) :
    (s.found? command).isSome = s.setsUsing command := by
  cases s with
  | allow p => cases h : command.usesUsing <;> simp [found?, setsUsing, h]
  | _ => rfl

/-- A setter sets the predicate of the rows written exactly if it has one for it. -/
theorem isSome_written? (command : Command) (s : Setter) :
    (s.written? command).isSome = s.setsCheck command := by
  cases s with
  | allow p => cases h : command.usesCheck <;> simp [written?, setsCheck, h]
  | _ => rfl

/-- A setter fits a command exactly if the command uses each clause the setter sets. -/
theorem fits_iff (command : Command) (s : Setter) :
    s.Fits command ↔
      (s.setsUsing command → command.usesUsing) ∧ (s.setsCheck command → command.usesCheck) := by
  cases s <;> simp [Fits, setsUsing, setsCheck]

end Setter

/-- What a whole run of settings does to the command and the clauses of a policy. -/
theorem setAll_clauses (policy : Policy) (setters : List Setter) :
    (policy.setAll setters).command = policy.command ∧
      (policy.setAll setters).usingExpr.isSome =
        (policy.usingExpr.isSome || setters.any (·.setsUsing policy.command)) ∧
      (policy.setAll setters).checkExpr.isSome =
        (policy.checkExpr.isSome || setters.any (·.setsCheck policy.command)) := by
  rw [setAll_eq]
  refine ⟨rfl, ?_, ?_⟩
  · simp only [Option.isSome_or, isSome_lastOf, Setter.isSome_found?, Bool.or_comm]
  · simp only [Option.isSome_or, isSome_lastOf, Setter.isSome_written?, Bool.or_comm]

/-- A run of settings keeps a policy within its command's clauses if and only if the
    policy was within them and each setting fits. -/
theorem clausesFit_setAll_iff (policy : Policy) (setters : List Setter) :
    (policy.setAll setters).ClausesFit ↔
      policy.ClausesFit ∧ ∀ s ∈ setters, s.Fits policy.command := by
  obtain ⟨hcommand, husing, hcheck⟩ := setAll_clauses policy setters
  rw [ClausesFit, ClausesFit, hcommand, husing, hcheck]
  simp only [Bool.or_eq_true, List.any_eq_true, Setter.fits_iff]
  -- a clause is there at the start or by a setter, on either side
  constructor
  · rintro ⟨hu, hc⟩
    refine ⟨⟨fun h => hu (.inl h), fun h => hc (.inl h)⟩, fun s hs => ⟨fun h => ?_, fun h => ?_⟩⟩
    · exact hu (.inr ⟨s, hs, h⟩)
    · exact hc (.inr ⟨s, hs, h⟩)
  · rintro ⟨⟨hu, hc⟩, hfits⟩
    constructor
    · rintro (h | ⟨s, hs, h⟩)
      · exact hu h
      · exact (hfits s hs).1 h
    · rintro (h | ⟨s, hs, h⟩)
      · exact hc h
      · exact (hfits s hs).2 h

/-- If a policy is rendered, each of its clauses is one that its command evaluates. -/
def RendersFit (policy : Policy) (extras : Extras) : Prop :=
  (∃ sql, policy.sql extras = .ok sql) → policy.ClausesFit

/-- A policy that cannot be rendered has no clauses, so it is no exception. -/
theorem rendersFit_iff (policy : Policy) (extras : Extras) :
    policy.RendersFit extras ↔ policy.ClausesFit := by
  refine ⟨fun h => ?_, fun h _ => h⟩
  -- without a predicate there is no clause to be out of place
  by_cases hclause : policy.HasClause
  · exact h ⟨_, sql_eq_ok.mpr ⟨hclause, rfl⟩⟩
  · rw [HasClause, not_or] at hclause
    exact ⟨fun husing => absurd husing hclause.1, fun hcheck => absurd hcheck hclause.2⟩

/-- A policy without clauses fits every command. -/
theorem clausesFit_start (name table : String) (command : Command) :
    (start name table command).ClausesFit := by
  simp [ClausesFit, start]

end Policy

/-! ### Drafts -/

namespace PolicyDraft

/-- A draft sets a single clause only if a command evaluates it. -/
def Fits (draft : PolicyDraft) (command : Command) : Prop :=
  (draft.usingExpr.isSome → command.usesUsing) ∧ (draft.checkExpr.isSome → command.usesCheck)

/-- The setting of a draft of a predicate fits a command if there is no draft, or
    every setting of its kind fits. -/
theorem fits_of_setting {setter : Predicate → Policy.Setter} {draft : Option PredicateDraft}
    {setters : List Policy.Setter} (command : Command) {fits : Prop}
    (h : setting setter draft = .ok setters) (hfits : ∀ p, (setter p).Fits command ↔ fits) :
    (∀ s ∈ setters, s.Fits command) ↔ (draft.isSome → fits) := by
  obtain ⟨rfl, rfl⟩ | ⟨d, p, rfl, -, rfl⟩ := setting_eq_ok.mp h
  · simp
  · simp [hfits]

/-- The setters made of a draft's predicates fit a command exactly if the draft does. -/
theorem fits_of_predicates {draft : PolicyDraft} {setters : List Policy.Setter}
    (h : draft.predicates = .ok setters) (command : Command) :
    (∀ s ∈ setters, s.Fits command) ↔ draft.Fits command := by
  obtain ⟨allow, found, written, hallow, hfound, hwritten, rfl⟩ := predicates_eq_ok.mp h
  have ha : (∀ s ∈ allow, s.Fits command) ↔ (draft.allow.isSome → True) :=
    fits_of_setting command hallow fun _ => Iff.rfl
  have hf := fits_of_setting command hfound fun _ => Iff.rfl
  have hw := fits_of_setting command hwritten fun _ => Iff.rfl
  simp only [List.forall_mem_append, ha, hf, hw, Fits, implies_true, true_and]

/-- The settings other than the predicates fit every command. -/
theorem fits_of_settings (draft : PolicyDraft) (command : Command) :
    ∀ s ∈ draft.settings, s.Fits command := by
  intro s hs
  simp only [settings, List.mem_append, Option.mem_toList, Option.map_eq_some_iff] at hs
  obtain (⟨_, -, rfl⟩ | hs) | ⟨_, -, rfl⟩ := hs
  · trivial
  · split at hs
    · rw [List.mem_singleton] at hs
      subst hs
      trivial
    · cases hs
  · trivial

/-- The policy of a template has just the clauses of its command. -/
theorem clausesFit_template (template : Template) (table : String) :
    (template.policy table).ClausesFit := by
  refine (Policy.clausesFit_setAll_iff _ [.allow template.predicate]).mpr
    ⟨Policy.clausesFit_start .., ?_⟩
  simp [Policy.Setter.Fits]

/-- A policy is within its command's clauses before the settings of its draft if and
    only if the draft fits the command. -/
theorem clausesFit_base {draft : PolicyDraft} {policy : Policy} (h : draft.base = .ok policy) :
    policy.ClausesFit ↔ draft.Fits policy.command := by
  obtain ⟨template, -, hoverlap, rfl⟩ | ⟨-, hexplicit⟩ := base_eq_ok.mp h
  -- a template sets its clauses through `allow`, and excludes the draft's own
  · refine iff_of_true (clausesFit_template template draft.table) ?_
    simp only [overlapsTemplate, Bool.or_eq_false_iff] at hoverlap
    simp [Fits, hoverlap]
  · obtain ⟨name, command, setters, -, -, hsetters, rfl⟩ := explicit_eq_ok.mp hexplicit
    rw [(Policy.setAll_clauses _ setters).1, Policy.clausesFit_setAll_iff,
      fits_of_predicates hsetters]
    exact and_iff_right (Policy.clausesFit_start ..)

/-- A policy that is realized has clauses that fit exactly if its draft does. -/
theorem clausesFit_realize {draft : PolicyDraft} {policy : Policy}
    (h : draft.realize = .ok policy) :
    policy.ClausesFit ↔ draft.Fits policy.command := by
  obtain ⟨start, settled, hbase, rfl, -, rfl⟩ := realize_eq_ok.mp h
  show (start.setAll draft.settings).ClausesFit ↔
    draft.Fits (start.setAll draft.settings).command
  rw [Policy.clausesFit_setAll_iff, (Policy.setAll_clauses start _).1, clausesFit_base hbase]
  exact and_iff_left (fits_of_settings draft _)

end PolicyDraft

/-! ### Which policies fit -/

/-- **Clauses and commands.** A policy that a run of settings makes is rendered with only
    the clauses that its command evaluates if and only if the run sets no single clause
    that the command does not evaluate; and one that a draft describes is if and only if
    the draft sets no such clause. -/
theorem clausesFit_iff (name table : String) (command : Command) (setters : List Policy.Setter)
    (draft : PolicyDraft) (policy : Policy) (extras : Extras) :
    (((Policy.start name table command).setAll setters).RendersFit extras ↔
      ∀ s ∈ setters, s.Fits command) ∧
    (draft.realize = .ok policy → (policy.RendersFit extras ↔ draft.Fits policy.command)) := by
  constructor
  · rw [Policy.rendersFit_iff, Policy.clausesFit_setAll_iff]
    exact and_iff_right (Policy.clausesFit_start name table command)
  · intro h
    rw [Policy.rendersFit_iff, PolicyDraft.clausesFit_realize h]

/-- The same policy for everybody who adds rows, by a setting and by a draft. -/
theorem clausesFit_allow_insert :
    let policy := (Policy.start "p" "t" .insert).setAll [.allow .alwaysTrue]
    let draft : PolicyDraft :=
      { table := "t", template := none, name := some "p", command := some .insert, role := none,
        usingExpr := none, checkExpr := none, allow := some .alwaysTrue, restrictive := false,
        description := none }
    draft.realize = .ok policy ∧ policy.ClausesFit := by
  intro policy draft
  obtain ⟨hbuilt, hrealized⟩ :=
    clausesFit_iff "p" "t" .insert [.allow .alwaysTrue] draft policy {}
  -- the shared predicate sets the clauses of the command alone
  have hsetters : ∀ s ∈ [Policy.Setter.allow .alwaysTrue], s.Fits .insert := by
    simp [Policy.Setter.Fits]
  have hdraft : draft.Fits policy.command := by simp [PolicyDraft.Fits, draft]
  have hfits : policy.ClausesFit := hbuilt.mpr hsetters ⟨_, rfl⟩
  have hsame : policy.ClausesFit := (hrealized rfl).mpr hdraft ⟨_, rfl⟩
  exact ⟨rfl, hsame⟩

/-- A `USING` predicate for an `INSERT` is rendered, though no `INSERT` evaluates it. -/
theorem rowsFound_insert_rendered :
    let policy := (Policy.start "p" "t" .insert).setAll [.rowsFound (.compare "a" .eq (.int 1))]
    policy.sql {} = .ok "CREATE POLICY \"p\" ON \"t\" FOR INSERT USING (\"a\" = 1)" ∧
      ¬ policy.ClausesFit := by
  refine ⟨by rfl, ?_⟩
  rintro ⟨husing, -⟩
  exact absurd (husing rfl) (by decide)

end RowPolicy
