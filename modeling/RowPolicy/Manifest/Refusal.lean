import RowPolicy.Fault
import RowPolicy.Predicate.Basic

namespace RowPolicy

/-!
# Refusals — drafts that no policy can be made of

* `Refusal` — the causes; a fault of the subquery or the policy that a draft
  describes is one of them;
* `Refusal.message` — the wording.
-/

/-- Why a draft is refused. -/
inductive Refusal where
  /-- An integer does not fit 64 bits with a sign. -/
  | integerRange (n : Int)
  /-- A membership has no source, or two. -/
  | sources (column : String)
  | noMembers (op : Connective)
  /-- A policy has a template, and parts that only a template can give it. -/
  | templateConflict (table : String)
  | unnamed (table : String)
  | noCommand (policy : String)
  | noGroups
  | noPolicies (group : String)
  | duplicatePolicy (policy table : String)
  | fault (f : Fault)
  deriving DecidableEq, Repr

/-- The word for groups under a connective. -/
def Connective.word : Connective → String
  | and => "and"
  | or => "or"

namespace Refusal

/-- What a refusal says about a manifest; a fault speaks for itself. -/
def reason : Refusal → String
  | integerRange n => "integer " ++ toString n ++ " does not fit in a signed 64-bit value"
  | sources column =>
    "membership on '" ++ column ++ "' needs exactly one of `values` or `subquery`"
  | noMembers op => "`" ++ op.word ++ "` needs at least one condition"
  | templateConflict table =>
    "templated policy on '" ++ table ++ "' cannot set operation or predicates"
  | unnamed table => "policy on '" ++ table ++ "' needs a name or a template"
  | noCommand policy => "policy '" ++ policy ++ "' needs an operation"
  | noGroups => "manifest defines no groups"
  | noPolicies group => "group '" ++ group ++ "' has no policies"
  | duplicatePolicy policy table =>
    "policy '" ++ policy ++ "' is defined twice on '" ++ table ++ "'"
  | fault f => f.message

/-- The wording of a refusal. -/
def message : Refusal → String
  | fault f => f.message
  | refusal => "invalid manifest: " ++ refusal.reason

end Refusal

end RowPolicy
