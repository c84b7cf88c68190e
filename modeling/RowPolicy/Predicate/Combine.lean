import RowPolicy.Predicate.Basic

namespace RowPolicy.Predicate

/-!
# Combining predicates

Two predicates under a connective make a group.  A group that has the same
connective is taken apart first, so that chains stay flat and the order of
their members is kept.

* `operands` — the members a predicate brings into a group;
* `combine`, `and`, `or` — two predicates as one group;
* `fold?`, `all`, `any` — a whole list as one predicate.
-/

/-- What a predicate brings into a group under `op`: the members of a group
    under the same connective, else itself. -/
def operands (op : Connective) : Predicate → List Predicate
  | group inner members => if inner = op then members else [group inner members]
  | p => [p]

/-- Two predicates under a connective. -/
def combine (op : Connective) (p q : Predicate) : Predicate :=
  group op (p.operands op ++ q.operands op)

/-- Both predicates hold. -/
protected def and (p q : Predicate) : Predicate := combine .and p q

/-- At least one of the predicates holds. -/
protected def or (p q : Predicate) : Predicate := combine .or p q

/-- The predicates of a list under a connective, combined from the left.  One
    predicate stays as it is, and no predicates make none. -/
def fold? (op : Connective) : List Predicate → Option Predicate
  | [] => none
  | p :: ps => some (ps.foldl (combine op) p)

/-- All predicates of a list hold. -/
def all (ps : List Predicate) : Option Predicate := fold? .and ps

/-- At least one predicate of a list holds. -/
def any (ps : List Predicate) : Option Predicate := fold? .or ps

end RowPolicy.Predicate
