import RowPolicy.Proofs.Predicate.Proper

namespace RowPolicy

/-!
# Bracketings

Predicates under one connective can be combined two at a time, in any order of the
parentheses.  As groups under the connective are taken apart, the parentheses leave no
trace:

* `Bracketing` — a way to put parentheses into a list of predicates;
* `Bracketing.combine_eq` — two predicates or more make one group of all their operands;
* `Bracketing.leftward`, `Predicate.fold_eq` — a list is combined along one of them;
* `Predicate.fold_splice` — part of a list may be combined on its own first;
* `Predicate.Flat` — the rule for groups.
-/

/-- Predicates in an order, with parentheses that say which of them to combine first. -/
inductive Bracketing where
  | leaf (p : Predicate)
  | node (left right : Bracketing)

namespace Bracketing

/-- The predicates of a bracketing, from left to right. -/
def leaves : Bracketing → List Predicate
  | leaf p => [p]
  | node left right => left.leaves ++ right.leaves

/-- The predicate that a bracketing makes under a connective. -/
def combine (op : Connective) : Bracketing → Predicate
  | leaf p => p
  | node left right => Predicate.combine op (left.combine op) (right.combine op)

/-! ### One group -/

/-- A bracketing brings into a group what its predicates bring in. -/
theorem operands_combine (op : Connective) (t : Bracketing) :
    (t.combine op).operands op = t.leaves.flatMap (·.operands op) := by
  induction t with
  | leaf p => simp [combine, leaves]
  | node left right ihleft ihright =>
    rw [combine, leaves, List.flatMap_append, ← ihleft, ← ihright, Predicate.combine,
      Predicate.operands, if_pos rfl]

/-- The group of a bracketing depends on its predicates alone; a single predicate makes no
    group. -/
theorem combine_eq (op : Connective) {t : Bracketing} (h : 2 ≤ t.leaves.length) :
    t.combine op = .group op (t.leaves.flatMap (·.operands op)) := by
  cases t with
  | leaf p => simp [leaves] at h
  | node left right =>
    rw [combine, Predicate.combine, operands_combine, operands_combine, leaves,
      List.flatMap_append]

/-! ### From the left -/

/-- A bracketing with further predicates, each combined with all that stand before it. -/
def leftward (t : Bracketing) (ps : List Predicate) : Bracketing :=
  ps.foldl (fun t p => node t (leaf p)) t

/-- A bracketing from the left has the further predicates behind its own. -/
theorem leaves_leftward (t : Bracketing) (ps : List Predicate) :
    (t.leftward ps).leaves = t.leaves ++ ps := by
  induction ps generalizing t with
  | nil => simp [leftward]
  | cons p ps ih =>
    have hstep : (t.leftward (p :: ps)).leaves = (node t (leaf p)).leaves ++ ps := ih _
    simpa [leaves] using hstep

/-- A bracketing from the left combines one predicate after another. -/
theorem combine_leftward (op : Connective) (t : Bracketing) (ps : List Predicate) :
    (t.leftward ps).combine op = ps.foldl (Predicate.combine op) (t.combine op) := by
  induction ps generalizing t with
  | nil => rfl
  | cons p ps ih => exact ih (node t (leaf p))

end Bracketing

namespace Predicate

/-- A group has two members or more and none that is a group under the same connective. -/
def Flat : Predicate → Prop
  | group op members => 2 ≤ members.length ∧ ∀ m ∈ members, ¬ m.IsGroup op
  | _ => True

/-- Being flat is a rule of groups alone. -/
theorem isGroupRule_flat : IsGroupRule Flat := fun _ _ => Iff.rfl

/-! ### Lists -/

/-- A list is combined along the bracketing from the left. -/
theorem fold_cons (op : Connective) (p : Predicate) (ps : List Predicate) :
    fold? op (p :: ps) = some (((Bracketing.leaf p).leftward ps).combine op) := by
  rw [Bracketing.combine_leftward]
  rfl

/-- Two predicates or more make one group of all their operands. -/
theorem fold_eq (op : Connective) {ps : List Predicate} (h : 2 ≤ ps.length) :
    fold? op ps = some (group op (ps.flatMap (·.operands op))) := by
  cases ps with
  | nil => simp at h
  | cons p ps =>
    have hleaves : ((Bracketing.leaf p).leftward ps).leaves = p :: ps :=
      Bracketing.leaves_leftward (.leaf p) ps
    rw [fold_cons, Bracketing.combine_eq op (hleaves ▸ h), hleaves]

/-- The predicate of a list brings into a group what the list brings in. -/
theorem operands_fold {op : Connective} {ps : List Predicate} {p : Predicate}
    (h : fold? op ps = some p) : p.operands op = ps.flatMap (·.operands op) := by
  cases ps with
  | nil => cases h
  | cons q qs =>
    have hleaves : ((Bracketing.leaf q).leftward qs).leaves = q :: qs :=
      Bracketing.leaves_leftward (.leaf q) qs
    rw [fold_cons, Option.some.injEq] at h
    rw [← h, Bracketing.operands_combine, hleaves]

/-- Part of a list may be combined on its own first. -/
theorem fold_splice {op : Connective} {inner : List Predicate} {p : Predicate}
    (h : fold? op inner = some p) (before after : List Predicate) :
    fold? op (before ++ p :: after) = fold? op (before ++ inner ++ after) := by
  have hinner : 0 < inner.length := by
    cases inner with
    | nil => cases h
    | cons q qs => exact Nat.succ_pos _
  by_cases halone : before.length + after.length = 0
  -- nothing stands around the part, so it is all there is to combine
  · have hbefore : before = [] := List.length_eq_zero_iff.mp (by omega)
    have hafter : after = [] := List.length_eq_zero_iff.mp (by omega)
    subst hbefore hafter
    simpa [fold?] using h.symm
  · have hwhole : 2 ≤ (before ++ p :: after).length := by
      simp only [List.length_append, List.length_cons]
      omega
    have hspliced : 2 ≤ (before ++ inner ++ after).length := by
      simp only [List.length_append]
      omega
    rw [fold_eq op hwhole, fold_eq op hspliced]
    simp only [List.flatMap_append, List.flatMap_cons, operands_fold h, List.append_assoc]

end Predicate

end RowPolicy
