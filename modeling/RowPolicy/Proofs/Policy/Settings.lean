import RowPolicy.Proofs.Manifest.Sql

namespace RowPolicy

/-!
# What a run of settings leaves

A setting replaces what was set before and changes nothing else.  So each part of a policy is
what the last setting says about it, whatever settings stand in between:

* `Policy.Setter.found?`, `Policy.Setter.written?`, ... — what one setting says about a part;
* `Policy.lastOf` — what the last of some settings says, of those that say anything;
* `Policy.set_eq`, `Policy.setAll_eq` — a policy after one setting, and after all of them;
* `Policy.settled_lastOf` — a policy that is made by settings alone.
-/

namespace Policy

/-! ### One setting -/

namespace Setter

/-- The `USING` predicate that a setting gives a policy for a command. -/
def found? (command : Command) : Setter → Option Predicate
  | rowsFound p => some p
  | allow p => if command.usesUsing then some p else none
  | _ => none

/-- The `WITH CHECK` predicate that a setting gives a policy for a command. -/
def written? (command : Command) : Setter → Option Predicate
  | rowsWritten p => some p
  | allow p => if command.usesCheck then some p else none
  | _ => none

/-- The role that a setting names. -/
def role? : Setter → Option String
  | role name => some name
  | _ => none

/-- The description that a setting attaches. -/
def description? : Setter → Option String
  | description text => some text
  | _ => none

/-- Whether a setting makes a policy restrictive. -/
def isRestrictive : Setter → Bool
  | restrictive => true
  | _ => false

end Setter

/-- One setting replaces the parts that it says something about, and no other. -/
theorem set_eq (policy : Policy) (s : Setter) :
    policy.set s =
      { policy with
        role := s.role?.or policy.role
        usingExpr := (s.found? policy.command).or policy.usingExpr
        checkExpr := (s.written? policy.command).or policy.checkExpr
        restrictive := policy.restrictive || s.isRestrictive
        description := s.description?.or policy.description } := by
  cases s with
  | allow p =>
    show policy.allow p = _
    rw [allow, Setter.found?, Setter.written?]
    -- a clause that the command does not evaluate stays as it was
    by_cases husing : policy.command.usesUsing <;> by_cases hcheck : policy.command.usesCheck <;>
      simp [husing, hcheck, Setter.role?, Setter.description?, Setter.isRestrictive]
  | _ =>
    simp [set, Setter.found?, Setter.written?, Setter.role?, Setter.description?,
      Setter.isRestrictive]

/-! ### All settings -/

/-- What the last of some settings says, among those that say anything. -/
def lastOf {α : Type} (part : Setter → Option α) (setters : List Setter) : Option α :=
  (setters.filterMap part).getLast?

section

variable {α : Type} (part : Setter → Option α)

/-- The last setting of two lists is that of the second, or else that of the first. -/
theorem lastOf_append (before after : List Setter) :
    lastOf part (before ++ after) = (lastOf part after).or (lastOf part before) := by
  rw [lastOf, List.filterMap_append, List.getLast?_append]
  rfl

/-- A setter by itself is the last one, if it sets the part at all. -/
theorem lastOf_singleton (s : Setter) : lastOf part [s] = part s := by
  show ([s].filterMap part).getLast? = part s
  cases hpart : part s <;> simp [hpart]

/-- A setting counts only if none behind it says anything. -/
theorem lastOf_cons (s : Setter) (rest : List Setter) :
    lastOf part (s :: rest) = (lastOf part rest).or (part s) := by
  rw [← List.singleton_append, lastOf_append, lastOf_singleton]

/-- There is a last setting exactly if one of the setters sets the part. -/
theorem isSome_lastOf (setters : List Setter) :
    (lastOf part setters).isSome = setters.any fun s => (part s).isSome := by
  induction setters with
  | nil => rfl
  | cons s rest ih => rw [lastOf_cons, Option.isSome_or, ih, List.any_cons, Bool.or_comm]

end

/-- A run of settings leaves in each part what the last of them says about it, or else what
    was there. -/
theorem setAll_eq (policy : Policy) (setters : List Setter) :
    policy.setAll setters =
      { policy with
        role := (lastOf Setter.role? setters).or policy.role
        usingExpr := (lastOf (Setter.found? policy.command) setters).or policy.usingExpr
        checkExpr := (lastOf (Setter.written? policy.command) setters).or policy.checkExpr
        restrictive := policy.restrictive || setters.any Setter.isRestrictive
        description := (lastOf Setter.description? setters).or policy.description } := by
  induction setters generalizing policy with
  | nil => simp [setAll, lastOf]
  | cons s rest ih =>
    show (policy.set s).setAll rest = _
    -- what the rest sets comes later, so it goes before what this setter does
    rw [ih, set_eq]
    simp only [lastOf_cons, List.any_cons, Option.or_assoc, Bool.or_assoc]

/-! ### Policies made by settings -/

/-- A policy is made restrictive exactly by the setter for it. -/
theorem any_isRestrictive (setters : List Setter) :
    setters.any Setter.isRestrictive = true ↔ Setter.restrictive ∈ setters := by
  rw [List.any_eq_true]
  constructor
  · rintro ⟨s, hs, hrestrictive⟩
    cases s with
    | restrictive => exact hs
    | _ => cases hrestrictive
  · exact fun h => ⟨_, h, rfl⟩

/-- **The last setting counts.** A policy that is made by settings alone keeps its name, its
    table and its command.  Its `USING` predicate is that of the last setting which gives one to
    a policy for this command, and likewise its `WITH CHECK` predicate; role and description are
    those that were given last, and it is restrictive if that was ever said.  It is accepted as
    it is, and has a text whatever the extras, if and only if some setting gives it a predicate. -/
theorem settled_lastOf (name table : String) (command : Command) (setters : List Setter) :
    let policy := (start name table command).setAll setters
    (policy.name = name ∧ policy.table = table ∧ policy.command = command) ∧
      policy.usingExpr = lastOf (Setter.found? command) setters ∧
      policy.checkExpr = lastOf (Setter.written? command) setters ∧
      policy.role = lastOf Setter.role? setters ∧
      policy.description = lastOf Setter.description? setters ∧
      (policy.restrictive = true ↔ Setter.restrictive ∈ setters) ∧
      (policy.validate = .ok policy ↔
        ∃ s ∈ setters, (s.found? command).isSome ∨ (s.written? command).isSome) ∧
      ∀ extras, (∃ text, policy.sql extras = .ok text) ↔
        ∃ s ∈ setters, (s.found? command).isSome ∨ (s.written? command).isSome := by
  intro policy
  have hpolicy : policy = _ := setAll_eq (start name table command) setters
  -- the start has no clauses, so the settings are all there is
  have husing : policy.usingExpr = lastOf (Setter.found? command) setters := by
    rw [hpolicy]
    exact Option.or_none
  have hcheck : policy.checkExpr = lastOf (Setter.written? command) setters := by
    rw [hpolicy]
    exact Option.or_none
  -- a clause is set by one of the setters, on one of the two sides
  have hclause : policy.HasClause ↔
      ∃ s ∈ setters, (s.found? command).isSome ∨ (s.written? command).isSome := by
    rw [HasClause, husing, hcheck, isSome_lastOf, isSome_lastOf]
    simp only [List.any_eq_true, and_or_left, exists_or]
  refine ⟨?_, husing, hcheck, ?_, ?_, ?_, ?_, fun extras => ?_⟩
  · rw [hpolicy]
    exact ⟨rfl, rfl, rfl⟩
  · rw [hpolicy]
    exact Option.or_none
  · rw [hpolicy]
    exact Option.or_none
  · rw [hpolicy]
    exact any_isRestrictive setters
  · rw [validate_eq_ok, and_iff_left rfl]
    exact hclause
  · simp only [sql_eq_ok, exists_and_left, exists_eq, and_true]
    exact hclause

end Policy

end RowPolicy
