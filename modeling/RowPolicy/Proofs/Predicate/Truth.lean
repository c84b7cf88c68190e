import RowPolicy.Predicate.Combine
import RowPolicy.Proofs.Predicate.Expr

namespace RowPolicy

open Sql

/-!
# What predicates mean

A condition of SQL is true, false or unknown.  A group takes its value from those of its
members, and whatever is no group has some value of its own.  Combining predicates takes
groups apart, and groups may be empty or have one member; none of this changes the value of
what is combined:

* `Truth`, `Truth.and`, `Truth.or` — the values and the two connectives on them;
* `Predicate.truth` — the value of a predicate, given those of the predicates that are no
  groups;
* `Predicate.truth_combine`, `Predicate.truth_fold` — the value of what is combined;
* `Sql.Expr.truth`, `Predicate.truth_expr` — the written expression has the same value;
* `Predicate.truth_flattened` — all of this for `and`, `or`, `all` and `any`.
-/

/-! ### Values -/

/-- The value of a condition. -/
inductive Truth where
  | false
  | unknown
  | true
  deriving DecidableEq, Repr

namespace Truth

/-- False if one side is, else unknown if one side is. -/
protected def and : Truth → Truth → Truth
  | false, _ | _, false => false
  | unknown, _ | _, unknown => unknown
  | true, true => true

/-- True if one side is, else unknown if one side is. -/
protected def or : Truth → Truth → Truth
  | true, _ | _, true => true
  | unknown, _ | _, unknown => unknown
  | false, false => false

/-- The word for a value. -/
def sql : Truth → String
  | false => "FALSE"
  | unknown => "NULL"
  | true => "TRUE"

end Truth

namespace Connective

/-- Two values under a connective. -/
def truth : Connective → Truth → Truth → Truth
  | and => Truth.and
  | or => Truth.or

/-- The value that changes no other one under a connective. -/
def neutral : Connective → Truth
  | and => .true
  | or => .false

/-- The values of a list under a connective; without values, the neutral one. -/
def truthOf (op : Connective) (values : List Truth) : Truth := values.foldr op.truth op.neutral

/-- How three values are combined does not depend on the brackets. -/
theorem truth_assoc (op : Connective) (a b c : Truth) :
    op.truth (op.truth a b) c = op.truth a (op.truth b c) := by
  cases op <;> cases a <;> cases b <;> cases c <;> rfl

/-- The neutral value adds nothing in front. -/
theorem truth_neutral_left (op : Connective) (a : Truth) : op.truth op.neutral a = a := by
  cases op <;> cases a <;> rfl

/-- The neutral value adds nothing behind. -/
theorem truth_neutral_right (op : Connective) (a : Truth) : op.truth a op.neutral = a := by
  cases op <;> cases a <;> rfl

/-- The value of a row is that of its first member with the rest. -/
theorem truthOf_cons (op : Connective) (a : Truth) (values : List Truth) :
    op.truthOf (a :: values) = op.truth a (op.truthOf values) := rfl

/-- A list of one value has this value. -/
theorem truthOf_singleton (op : Connective) (a : Truth) : op.truthOf [a] = a :=
  op.truth_neutral_right a

/-- Where a list of values is cut does not matter. -/
theorem truthOf_append (op : Connective) (values others : List Truth) :
    op.truthOf (values ++ others) = op.truth (op.truthOf values) (op.truthOf others) := by
  induction values with
  | nil => exact (op.truth_neutral_left _).symm
  | cons a values ih => rw [List.cons_append, truthOf_cons, ih, truthOf_cons, truth_assoc]

end Connective

/-! ### Predicates -/

namespace Predicate

variable (value : Predicate → Truth)

mutual

/-- The value of a predicate, where `value` gives those of the predicates that are no
    groups. -/
def truth : Predicate → Truth
  | group op members => op.truthOf (truths members)
  | p => value p

/-- The value of each predicate. -/
def truths : List Predicate → List Truth
  | [] => []
  | p :: ps => p.truth :: truths ps

end

/-- Predicates in a row are evaluated one by one. -/
theorem truths_eq_map (ps : List Predicate) : truths value ps = ps.map (truth value) := by
  induction ps with
  | nil => rfl
  | cons p ps ih => rw [truths, ih, List.map_cons]

/-- A group has the value of its members under its connective. -/
theorem truth_group (op : Connective) (members : List Predicate) :
    (group op members).truth value = op.truthOf (members.map (truth value)) := by
  rw [truth, truths_eq_map]

/-! ### Combining -/

/-- What a predicate brings into a group has the value of the predicate, also if it is a
    group that is taken apart, with no members or with one. -/
theorem truth_operands (op : Connective) (p : Predicate) :
    op.truthOf ((p.operands op).map (truth value)) = p.truth value := by
  have hself (q : Predicate) : op.truthOf ([q].map (truth value)) = q.truth value :=
    op.truthOf_singleton _
  cases p with
  | group inner members =>
    rw [operands]
    by_cases hop : inner = op
    · rw [if_pos hop, truth_group, hop]
    · rw [if_neg hop, hself]
  | _ => exact hself _

/-- Two predicates under a connective have their two values under it. -/
theorem truth_combine (op : Connective) (p q : Predicate) :
    (combine op p q).truth value = op.truth (p.truth value) (q.truth value) := by
  rw [combine, truth_group, List.map_append, Connective.truthOf_append, truth_operands,
    truth_operands]

/-- A fold has the value of its start with all that is folded into it. -/
theorem truth_foldl (op : Connective) (p : Predicate) (ps : List Predicate) :
    (ps.foldl (combine op) p).truth value =
      op.truth (p.truth value) (op.truthOf (ps.map (truth value))) := by
  induction ps generalizing p with
  | nil => exact (op.truth_neutral_right _).symm
  | cons q ps ih =>
    rw [List.foldl_cons, ih, truth_combine, Connective.truth_assoc, List.map_cons,
      Connective.truthOf_cons]

/-- A list of predicates has the values of the list under its connective; only the empty list
    makes no predicate. -/
theorem truth_fold (op : Connective) (ps : List Predicate) :
    (fold? op ps).map (truth value) =
      if ps = [] then none else some (op.truthOf (ps.map (truth value))) := by
  cases ps with
  | nil => rfl
  | cons p ps =>
    rw [fold?, Option.map_some, truth_foldl, if_neg (List.cons_ne_nil p ps)]
    rfl

/-- The empty group is written as the word for its value. -/
theorem sql_group_nil (op : Connective) :
    (group op []).sql = ((group op []).truth value).sql := by
  cases op <;> rfl

end Predicate

/-! ### The written expression -/

namespace Sql.Expr

variable (value : Expr → Truth)

mutual

/-- The value of an expression, where `value` gives those of the expressions that are neither
    the words for values nor put together by connectives. -/
def truth : Expr → Truth
  | constant "TRUE" => .true
  | constant "FALSE" => .false
  | constant "NULL" => .unknown
  | paren e => e.truth
  | chain op members => op.truthOf (truths members)
  | e => value e

/-- The value of each expression. -/
def truths : List Expr → List Truth
  | [] => []
  | e :: es => e.truth :: truths es

end

/-- The expression of a group has the value of its members, and of none for an empty group. -/
theorem truth_groupExpr (op : Connective) (members : List Expr) :
    (op.groupExpr members).truth value = op.truthOf (truths value members) := by
  match op, members with
  | .and, [] | .or, [] => rfl
  | .and, [e] | .or, [e] => exact (Connective.truthOf_singleton _ _).symm
  | .and, _ :: _ :: _ | .or, _ :: _ :: _ => rfl

end Sql.Expr

namespace Predicate

mutual

/-- The expression that a predicate is read as has the value of the predicate, where each
    predicate that is no group has the value of its expression. -/
theorem truth_expr (value : Expr → Truth) :
    (p : Predicate) → p.expr.truth value = p.truth fun leaf => leaf.expr.truth value
  | group op members => by
    rw [Predicate.expr, Expr.truth_groupExpr, truths_exprs, truth]
  | compare .. | pattern .. | member .. | null .. | helper .. | call .. | context _ => rfl

theorem truths_exprs (value : Expr → Truth) :
    (ps : List Predicate) →
      Expr.truths value (exprs ps) = truths (fun leaf => leaf.expr.truth value) ps
  | [] => rfl
  | p :: ps => by
    rw [exprs, Expr.truths, truths, truth_expr value p, truths_exprs value ps]

end

/-- **Flattening keeps the meaning.** Whatever the values of the predicates that are no groups,
    two predicates combined by `and` or `or` have the two values under that connective, and a
    list that is not empty, combined by `all` or `any`, has the values of the list under it.
    Empty groups are written as the words for their values, and every predicate is written as
    an expression with the value of the predicate. -/
theorem truth_flattened (value : Predicate → Truth) :
    (∀ p q : Predicate, (p.and q).truth value = (p.truth value).and (q.truth value)) ∧
    (∀ p q : Predicate, (p.or q).truth value = (p.truth value).or (q.truth value)) ∧
    (∀ ps, (all ps).map (truth value) =
      if ps = [] then none else some (Connective.and.truthOf (ps.map (truth value)))) ∧
    (∀ ps, (any ps).map (truth value) =
      if ps = [] then none else some (Connective.or.truthOf (ps.map (truth value)))) ∧
    (∀ op, (group op []).sql = ((group op []).truth value).sql) ∧
    ∀ (read : Expr → Truth) (p : Predicate),
      p.expr.truth read = p.truth fun leaf => leaf.expr.truth read :=
  ⟨truth_combine value .and, truth_combine value .or, truth_fold value .and, truth_fold value .or,
    sql_group_nil value, truth_expr⟩

example : ((group .or []).and (group .and [.null "a" .isNull])).truth (fun _ => .unknown) =
    .false := rfl

end Predicate

end RowPolicy
