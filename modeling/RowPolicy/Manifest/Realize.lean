import RowPolicy.Manifest.Draft
import RowPolicy.Manifest.Refusal
import RowPolicy.Policy.Group
import RowPolicy.Subquery

namespace RowPolicy

/-!
# Realizing drafts

A draft is realized from left to right and from the inside out; the first part
that cannot be realized refuses all of it.  Subqueries are built step by step,
so that a manifest can hold none whose tables are out of scope.

* `OperandDraft.realize`, `PredicateDraft.realize`, `SubqueryDraft.realize` —
  drafts of predicates;
* `PolicyDraft.realize` — the policy of a draft, settled and validated;
* `Manifest.realize` — the groups of a manifest, with no policy named twice on
  one table.
-/

/-! ### Operands -/

namespace OperandDraft

/-- The integer operand for a number of 64 bits with a sign. -/
def realizeInteger (n : Int) : Except Refusal Operand :=
  if Int64.minValue.toInt ≤ n ∧ n ≤ Int64.maxValue.toInt then .ok (.int (Int64.ofInt n))
  else .error (.integerRange n)

mutual

/-- The operand of a draft. -/
def realize : OperandDraft → Except Refusal Operand
  | .null => .ok .null
  | .bool b => .ok (.bool b)
  | .integer n => realizeInteger n
  | .float x => .ok (.float x)
  | .text s => .ok (.text s)
  | .array items => do return .array (← realizes items)
  | .instant t => .ok (.instant t)
  | .context c => .ok (.predicate (.context c))
  | .raw sql => .ok (.raw sql)

/-- The operands of some drafts. -/
def realizes : List OperandDraft → Except Refusal (List Operand)
  | [] => .ok []
  | v :: vs => do
    let operand ← v.realize
    return operand :: (← realizes vs)

end

example : (realizeInteger 9223372036854775807).toBool = true ∧
    (realizeInteger 9223372036854775808).toBool = false := by decide +kernel

end OperandDraft

/-! ### Predicates and subqueries -/

/-- The predicates of a group as one predicate. -/
def Connective.realizeGroup (op : Connective) (members : List Predicate) :
    Except Refusal Predicate :=
  match Predicate.fold? op members with
  | some p => .ok p
  | none => .error (.noMembers op)

/-- A subquery on a table, with columns selected if any are given. -/
def Subquery.selecting (table : String) (aliasName : Option String) (columns : List String) :
    Subquery :=
  let q := Subquery.ofTable table aliasName
  if columns.isEmpty then q else q.select columns

mutual

/-- The predicate of a draft. -/
def PredicateDraft.realize : PredicateDraft → Except Refusal Predicate
  | .compare column op operand => do return .compare column op (← operand.realize)
  | .pattern column op pattern => .ok (.pattern column op pattern)
  | .member column op (some values) none => do
    return .member column op (.values (← OperandDraft.realizes values))
  | .member column op none (some subquery) => do
    return .member column op (.subquery (← subquery.realize))
  | .member column .. => .error (.sources column)
  | .null column test => .ok (.null column test)
  | .isOwner column => .ok (.isOwner column)
  | .isPublic column => .ok (.isPublic column)
  | .belongsToTenant column setting => .ok (.belongsToTenant column setting)
  | .isMemberOf table foreignKey localKey => .ok (.isMemberOf table foreignKey localKey)
  | .userBelongsTo column table select => .ok (.userBelongsTo column table (select.getD column))
  | .releasedBefore column date => .ok (.releasedBefore column date)
  | .hasRole role table => .ok (.hasRole role table)
  | .alwaysTrue => .ok .alwaysTrue
  | .call function args => do return .call function (← ArgumentDraft.realizes args)
  | .group op members => do op.realizeGroup (← PredicateDraft.realizes members)

/-- The predicates of some drafts. -/
def PredicateDraft.realizes : List PredicateDraft → Except Refusal (List Predicate)
  | [] => .ok []
  | p :: ps => do
    let predicate ← p.realize
    return predicate :: (← PredicateDraft.realizes ps)

/-- The argument of a draft. -/
def ArgumentDraft.realize : ArgumentDraft → Except Refusal Argument
  | .column reference => .ok (.column reference)
  | .predicate p => do return .predicate (← p.realize)

/-- The arguments of some drafts. -/
def ArgumentDraft.realizes : List ArgumentDraft → Except Refusal (List Argument)
  | [] => .ok []
  | a :: as => do
    let argument ← a.realize
    return argument :: (← ArgumentDraft.realizes as)

/-- A subquery with the join of a draft attached. -/
def JoinDraft.attachTo (q : Subquery) : Option JoinDraft → Except Refusal Subquery
  | none => .ok q
  | some ⟨kind, table, aliasName, on⟩ => do
    let on ← on.realize
    (q.attach { kind, table, aliasName, on }).mapError .fault

/-- A subquery restricted by the filter of a draft. -/
def PredicateDraft.restrictTo (q : Subquery) : Option PredicateDraft → Except Refusal Subquery
  | none => .ok q
  | some p => do
    let filter ← p.realize
    (q.restrict filter).mapError .fault

/-- The subquery of a draft: the join is attached before the filter. -/
def SubqueryDraft.realize : SubqueryDraft → Except Refusal Subquery
  | ⟨table, aliasName, columns, join, filter⟩ => do
    let q ← JoinDraft.attachTo (Subquery.selecting table aliasName columns) join
    PredicateDraft.restrictTo q filter

end

/-! ### Policies -/

namespace PolicyDraft

/-- The setting that a draft of a predicate makes, if there is one. -/
def setting (setter : Predicate → Policy.Setter) :
    Option PredicateDraft → Except Refusal (List Policy.Setter)
  | none => .ok []
  | some p => do return [setter (← p.realize)]

/-- The predicates of a draft, in the order in which they take effect: one
    clause's own predicate comes after the one for all clauses. -/
def predicates (draft : PolicyDraft) : Except Refusal (List Policy.Setter) := do
  let allow ← setting .allow draft.allow
  let found ← setting .rowsFound draft.usingExpr
  let written ← setting .rowsWritten draft.checkExpr
  return allow ++ found ++ written

/-- The settings that every draft may have. -/
def settings (draft : PolicyDraft) : List Policy.Setter :=
  (draft.role.map Policy.Setter.role).toList ++
    (if draft.restrictive then [.restrictive] else []) ++
    (draft.description.map Policy.Setter.description).toList

/-- The policy of a draft without a template, before its settings. -/
def explicit (draft : PolicyDraft) : Except Refusal Policy :=
  match draft.name, draft.command with
  | none, _ => .error (.unnamed draft.table)
  | some name, none => .error (.noCommand name)
  | some name, some command => do
    return (Policy.start name draft.table command).setAll (← draft.predicates)

/-- Whether a draft sets what its template sets. -/
def overlapsTemplate (draft : PolicyDraft) : Bool :=
  draft.command.isSome || draft.usingExpr.isSome || draft.checkExpr.isSome || draft.allow.isSome

/-- The policy of a draft before its settings. -/
def base (draft : PolicyDraft) : Except Refusal Policy :=
  match draft.template with
  | none => draft.explicit
  | some template =>
    if draft.overlapsTemplate then .error (.templateConflict draft.table)
    else .ok (template.policy draft.table)

/-- The policy of a draft; a name in the draft replaces that of the template. -/
def realize (draft : PolicyDraft) : Except Refusal Policy := do
  let policy ← draft.base
  let policy ← ((policy.setAll draft.settings).validate).mapError .fault
  return { policy with name := draft.name.getD policy.name }

end PolicyDraft

/-! ### Manifests -/

namespace Manifest

/-- The policies met so far and some more, by table and name; none of them may
    have been met before. -/
def register (seen : List (String × String)) :
    List Policy → Except Refusal (List (String × String))
  | [] => .ok seen
  | policy :: rest =>
    if (policy.table, policy.name) ∈ seen then
      .error (.duplicatePolicy policy.name policy.table)
    else register (seen ++ [(policy.table, policy.name)]) rest

/-- The groups of some drafts, where `seen` are the policies met so far. -/
def realizeGroups (seen : List (String × String)) :
    List GroupDraft → Except Refusal (List PolicyGroup)
  | [] => .ok []
  | group :: rest =>
    if group.policies.isEmpty then .error (.noPolicies group.name)
    else do
      let policies ← group.policies.mapM PolicyDraft.realize
      let seen ← register seen policies
      let groups ← realizeGroups seen rest
      return { name := group.name, policies, description := group.description } :: groups

/-- The groups of a manifest, of which there has to be one. -/
def realize (m : Manifest) : Except Refusal (List PolicyGroup) :=
  if m.groups.isEmpty then .error .noGroups else realizeGroups [] m.groups

/-- The tables that a manifest protects, each once. -/
def tables (m : Manifest) : List String :=
  firstOccurrences (m.groups.flatMap fun group => group.policies.map (·.table))

end Manifest

end RowPolicy
