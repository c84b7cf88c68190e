import RowPolicy.Proofs.Manifest.Realize
import RowPolicy.Proofs.Predicate.Bracketing

namespace RowPolicy

/-!
# Groups in drafts

A draft may nest groups under one connective as it likes.  Realizing takes a nested group
apart, so a draft that lists its members in its place realizes alike:

* `PredicateDraft.realizes_append` — drafts are realized one after the other;
* `Connective.realizeGroup_splice` — the members of a group in its place;
* `PredicateDraft.realize_splice` — the same for drafts, with the refusals;
* `bracketings_agree` — what parentheses around predicates, and nested groups in drafts, do
  not change.
-/

/-- A group with members is realized. -/
theorem Connective.realizeGroup_of_ne_nil (op : Connective) {members : List Predicate}
    (h : members ≠ []) :
    ∃ p, Predicate.fold? op members = some p ∧ op.realizeGroup members = .ok p := by
  cases members with
  | nil => exact absurd rfl h
  | cons p ps => exact ⟨_, rfl, rfl⟩

/-- Instead of a group its members may stand in a group under the same connective. -/
theorem Connective.realizeGroup_splice {op : Connective} {inner : List Predicate} {p : Predicate}
    (h : Predicate.fold? op inner = some p) (before after : List Predicate) :
    op.realizeGroup (before ++ p :: after) = op.realizeGroup (before ++ inner ++ after) := by
  rw [realizeGroup, realizeGroup, Predicate.fold_splice h]

namespace PredicateDraft

/-- Drafts are realized one after another, so a list of them can be cut anywhere. -/
theorem realizes_append (ds es : List PredicateDraft) :
    realizes (ds ++ es) = do
      let ps ← realizes ds
      let qs ← realizes es
      return ps ++ qs := by
  induction ds with
  | nil => simp [realizes, ok_bind]
  | cons d ds ih => simp [realizes, ih]

/-- No draft vanishes when it is realized. -/
theorem ne_nil_of_realizes {ds : List PredicateDraft} {ps : List Predicate} (hne : ds ≠ [])
    (h : realizes ds = .ok ps) : ps ≠ [] := by
  cases ds with
  | nil => exact absurd rfl hne
  | cons d ds =>
    obtain ⟨p, -, rest, -, rfl⟩ := realizes_cons_eq_ok.mp h
    exact List.cons_ne_nil p rest

/-- Instead of a nested group its members may be listed: the predicate is the same, and so is
    the refusal if there is one. -/
theorem realize_splice (op : Connective) (before after : List PredicateDraft)
    {inner : List PredicateDraft} (hinner : inner ≠ []) :
    (group op (before ++ group op inner :: after)).realize =
      (group op (before ++ inner ++ after)).realize := by
  have hnested : realizes (group op inner :: after) = do
      let p ← realizes inner >>= op.realizeGroup
      return p :: (← realizes after) := rfl
  simp only [realize, realizes_append, hnested, bind_assoc, pure_bind, List.append_assoc]
  -- what stands before the group is realized first on both sides
  refine bind_congr fun ps => ?_
  cases hmembers : realizes inner with
  | error r => rfl
  | ok members =>
    obtain ⟨p, hfold, hgroup⟩ := op.realizeGroup_of_ne_nil (ne_nil_of_realizes hinner hmembers)
    have hspliced : ∀ qs : List Predicate,
        op.realizeGroup (ps ++ p :: qs) = op.realizeGroup (ps ++ (members ++ qs)) := by
      intro qs
      rw [Connective.realizeGroup_splice hfold, List.append_assoc]
    simp only [ok_bind, hgroup, hspliced]

end PredicateDraft

/-! ### Parentheses -/

/-- **Parentheses do not matter.** Two predicates or more, combined under a connective along
    any bracketing, make the group of their operands, in order; combining a list makes the
    same group.  If the predicates keep the rule for groups everywhere, so does the group.
    In a draft a nested group with members may be replaced by these. -/
theorem bracketings_agree (ps : List Predicate) (h : 2 ≤ ps.length) :
    (∀ (op : Connective) (t : Bracketing), t.leaves = ps →
      t.combine op = .group op (ps.flatMap (·.operands op))) ∧
    (Predicate.all ps = some (.group .and (ps.flatMap (·.operands .and))) ∧
      Predicate.any ps = some (.group .or (ps.flatMap (·.operands .or)))) ∧
    (∀ op : Connective, (∀ p ∈ ps, p.Everywhere Predicate.Flat) →
      (Predicate.group op (ps.flatMap (·.operands op))).Everywhere Predicate.Flat) ∧
    ∀ (op : Connective) (before inner after : List PredicateDraft), inner ≠ [] →
      (PredicateDraft.group op (before ++ .group op inner :: after)).realize =
        (PredicateDraft.group op (before ++ inner ++ after)).realize := by
  refine ⟨?_, ⟨Predicate.fold_eq .and h, Predicate.fold_eq .or h⟩, ?_, ?_⟩
  · rintro op t rfl
    exact Bracketing.combine_eq op h
  · intro op hflat
    exact Predicate.everywhere_fold Predicate.isGroupRule_flat hflat (Predicate.fold_eq op h)
  · intro op before inner after hinner
    exact PredicateDraft.realize_splice op before after hinner

/-- Groups under both connectives, one with a single member and one without any, combined
    from the right under each connective. -/
theorem bracketings_agree_mixed :
    let a : Predicate := .null "a" .isNull
    let b : Predicate := .null "b" .isNull
    let ps : List Predicate := [.group .or [a, b], a, .group .and [b], .group .or []]
    let t : Bracketing := .node (.leaf (.group .or [a, b]))
      (.node (.leaf a) (.node (.leaf (.group .and [b])) (.leaf (.group .or []))))
    2 ≤ ps.length ∧ t.leaves = ps ∧
      t.combine .and = .group .and [.group .or [a, b], a, b, .group .or []] ∧
      t.combine .or = .group .or [a, b, a, .group .and [b]] := by
  intro a b ps t
  have h : 2 ≤ ps.length := by decide
  obtain ⟨hbracketing, -⟩ := bracketings_agree ps h
  exact ⟨h, rfl, hbracketing .and t rfl, hbracketing .or t rfl⟩

end RowPolicy
