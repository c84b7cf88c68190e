import RowPolicy.Proofs.Subquery.Names

namespace RowPolicy

/-!
# The order of the steps of a run

The steps of a subquery may be given in another order.  Selections are never refused, a join
is refused for another join only or for its own `ON` predicate, and a filter for a join that
is not there yet.  So a run that accepts all of its steps also does so in every order that
keeps the filters among each other and the selections among each other in place and brings no
filter in front of the join that stood behind it:

* `Subquery.AcceptsAll` — a run that accepts all of its steps;
* `Subquery.filtersAhead`, `Subquery.acceptsAll_iff` — what this asks of joins and filters;
* `Subquery.filter_run`, `Subquery.run_eq_run` — what a run comes to, in terms of its steps;
* `Subquery.IsReordering` — the same steps in another order;
* `Subquery.reordering_agrees` — both runs accept everything and come to the same subquery.
-/

namespace Subquery

/-! ### Runs without a refusal -/

/-- A run that accepts all of its steps. -/
def AcceptsAll (q : Subquery) (steps : List Step) : Prop := q.accepted steps = steps

/-- No more steps are accepted than there are. -/
theorem length_accepted_le (q : Subquery) (steps : List Step) :
    (q.accepted steps).length ≤ steps.length := by
  induction steps generalizing q with
  | nil => exact Nat.le_refl _
  | cons s steps ih =>
    -- an accepted step counts for one, and a refused one for none
    cases happly : q.apply s with
    | ok next =>
      rw [(run_cons_of_ok happly steps).2]
      exact Nat.succ_le_succ (ih next)
    | error f =>
      rw [(run_cons_of_error happly steps).2]
      exact Nat.le_succ_of_le (ih q)

/-- All steps are accepted if the first one is and the others are behind it. -/
theorem acceptsAll_cons {q : Subquery} {s : Step} {steps : List Step} :
    q.AcceptsAll (s :: steps) ↔
      ¬ q.IsSecondJoin s ∧ s.outside q = [] ∧ (q.effect s).AcceptsAll steps := by
  rw [AcceptsAll]
  cases happly : q.apply s with
  | ok next =>
    -- the step is accepted, so the others have to be accepted behind it
    obtain ⟨hfirst, hinside, rfl⟩ := apply_eq_ok.mp happly
    rw [(run_cons_of_ok happly steps).2, List.cons.injEq]
    simp [hfirst, hinside, AcceptsAll]
  | error f =>
    rw [(run_cons_of_error happly steps).2]
    refine iff_of_false (fun hall => ?_) fun ⟨hfirst, hinside, _⟩ => ?_
    · -- too few steps are left
      have hlength := length_accepted_le q steps
      rw [hall] at hlength
      exact Nat.not_succ_le_self _ hlength
    · rw [apply_eq_ok.mpr ⟨hfirst, hinside, rfl⟩] at happly
      cases happly

/-! ### Joins and filters -/

/-- The filter that a step adds to a subquery, if it adds one. -/
def Step.filter? : Step → Option Predicate
  | restrict p => some p
  | _ => none

/-- The filters that stand in front of the first join among some steps; all of them if there is
    no join. -/
def filtersAhead (steps : List Step) : List Predicate :=
  (steps.takeWhile fun s => s.join?.isNone).filterMap Step.filter?

/-- The filters in front of the first join are among all of them. -/
theorem filtersAhead_subset (steps : List Step) :
    filtersAhead steps ⊆ steps.filterMap Step.filter? :=
  ((List.takeWhile_sublist _).filterMap _).subset

/-- The joins of a subquery behind some steps, if all of them are accepted. -/
def joinsBehind (q : Subquery) (steps : List Step) : List Join :=
  q.join.toList ++ steps.filterMap Step.join?

/-- A predicate that refers to the main table and to tables of some joins only. -/
def Sees (q : Subquery) (joins : List Join) (p : Predicate) : Prop :=
  ∀ table ∈ p.tables, table = q.scopeName ∨ ∃ j ∈ joins, table = j.scopeName

/-- A filter has its tables in scope exactly if the subquery sees them with its join. -/
theorem tables_subset_available {q : Subquery} {p : Predicate} :
    p.tables ⊆ q.available ↔ q.Sees q.join.toList p := by
  simp [Sees, List.subset_def, mem_available]

/-- What is seen with some joins is seen with more. -/
theorem Sees.mono {q : Subquery} {p : Predicate} {joins others : List Join} (h : joins ⊆ others)
    (hsees : q.Sees joins p) : q.Sees others p := fun table htable =>
  (hsees table htable).imp_right fun ⟨j, hj, hname⟩ => ⟨j, h hj, hname⟩

/-- A filter misses no table exactly if the subquery sees its tables. -/
theorem outside_restrict_eq_nil {q : Subquery} {p : Predicate} :
    Step.outside q (.restrict p) = [] ↔ q.Sees q.join.toList p := by
  rw [Step.outside_eq_missing q (p := p) rfl, Predicate.missing_eq_nil]
  exact tables_subset_available

/-- A first join misses no table exactly if it is admitted. -/
theorem outside_attach_eq_nil {q : Subquery} (h : q.join = none) {j : Join} :
    Step.outside q (.attach j) = [] ↔ q.Admits j := by
  rw [← attach_accepted_iff h]
  simp [apply_eq_ok, isSecondJoin_attach, h]

/-- A run accepts all of its steps if and only if there is one join at most, its `ON` predicate
    refers to the main table and the joined one, the filters refer to these two, and those in
    front of the join to what is there before it. -/
theorem acceptsAll_iff {q : Subquery} {steps : List Step} :
    q.AcceptsAll steps ↔
      (q.joinsBehind steps).length ≤ 1 ∧
      (∀ j ∈ steps.filterMap Step.join?, q.Admits j) ∧
      (∀ p ∈ filtersAhead steps, q.Sees q.join.toList p) ∧
      ∀ p ∈ steps.filterMap Step.filter?, q.Sees (q.joinsBehind steps) p := by
  induction steps generalizing q with
  | nil =>
    have hone : (q.joinsBehind []).length ≤ 1 := by
      cases hjoin : q.join <;> simp [joinsBehind, hjoin]
    exact iff_of_true rfl ⟨hone, by simp, by simp [filtersAhead], by simp⟩
  | cons s steps ih =>
    rw [acceptsAll_cons, ih]
    cases s with
    | select columns =>
      have hinside : Step.outside q (.select columns) = [] := rfl
      rw [and_iff_right (not_isSecondJoin rfl), and_iff_right hinside]
      exact Iff.rfl
    | restrict p =>
      have hahead : filtersAhead (.restrict p :: steps) = p :: filtersAhead steps := rfl
      have hfilters : (Step.restrict p :: steps).filterMap Step.filter? =
          p :: steps.filterMap Step.filter? := rfl
      have hjoins : q.joinsBehind (.restrict p :: steps) = q.joinsBehind steps := rfl
      rw [and_iff_right (not_isSecondJoin rfl), outside_restrict_eq_nil, hahead, hfilters, hjoins,
        List.forall_mem_cons, List.forall_mem_cons]
      constructor
      · rintro ⟨hp, hone, hon, hfront, hall⟩
        exact ⟨hone, hon, ⟨hp, hfront⟩, hp.mono (List.subset_append_left _ _), hall⟩
      · rintro ⟨hone, hon, ⟨hp, hfront⟩, -, hall⟩
        exact ⟨hp, hone, hon, hfront, hall⟩
    | attach j =>
      have hjoins : (Step.attach j :: steps).filterMap Step.join? =
          j :: steps.filterMap Step.join? := rfl
      have hbefore : q.joinsBehind (.attach j :: steps) =
          q.join.toList ++ j :: steps.filterMap Step.join? := rfl
      have hbehind : (q.effect (.attach j)).joinsBehind steps =
          j :: steps.filterMap Step.join? := rfl
      rw [isSecondJoin_attach, hjoins, hbefore, hbehind]
      cases hjoin : q.join with
      | some existing =>
        -- a second join, which is one too many
        refine iff_of_false (by simp) fun ⟨hone, _⟩ => ?_
        simp at hone
      | none =>
        rw [outside_attach_eq_nil hjoin, Option.toList_none, List.nil_append, List.forall_mem_cons]
        constructor
        · rintro ⟨-, hj, hone, hon, -, hall⟩
          exact ⟨hone, ⟨hj, hon⟩, by simp [filtersAhead, Step.join?], hall⟩
        · rintro ⟨hone, ⟨hj, hon⟩, -, hall⟩
          have hnone : steps.filterMap Step.join? = [] :=
            List.length_eq_zero_iff.mp (Nat.le_zero.mp (Nat.le_of_succ_le_succ hone))
          refine ⟨by simp, hj, hone, hon, fun p hp => ?_, hall⟩
          -- no other join follows, so the filters behind this one see all there is
          have hsees := hall p (filtersAhead_subset steps hp)
          rw [hnone] at hsees
          exact hsees

/-! ### What a run comes to -/

/-- A step adds its filter to those before it. -/
theorem filter_effect (q : Subquery) (s : Step) (ps : List Predicate) :
    Predicate.all ((q.effect s).filter.toList ++ ps) =
      Predicate.all (q.filter.toList ++ (s.filter?.toList ++ ps)) := by
  cases s with
  | restrict p =>
    rw [effect, addFilter]
    cases q.filter <;> rfl
  | _ => rfl

/-- The filter behind a run is that at its start, combined with the filters that the run has
    accepted. -/
theorem filter_run (q : Subquery) (steps : List Step) :
    (q.run steps).filter =
      Predicate.all (q.filter.toList ++ (q.accepted steps).filterMap Step.filter?) := by
  induction steps generalizing q with
  | nil =>
    rw [run, List.foldl_nil]
    cases hfilter : q.filter <;> rfl
  | cons s steps ih =>
    cases happly : q.apply s with
    | ok next =>
      obtain ⟨-, -, rfl⟩ := apply_eq_ok.mp happly
      -- an accepted filter is combined with those before it, in order
      rw [(run_cons_of_ok happly steps).1, (run_cons_of_ok happly steps).2, ih, filter_effect]
      cases hs : s.filter? <;> simp [hs]
    | error f =>
      rw [(run_cons_of_error happly steps).1, (run_cons_of_error happly steps).2, ih]

/-- A run does not change which table is read, nor its alias. -/
theorem table_run (q : Subquery) (steps : List Step) :
    (q.run steps).table = q.table ∧ (q.run steps).aliasName = q.aliasName := by
  induction steps generalizing q with
  | nil => exact ⟨rfl, rfl⟩
  | cons s steps ih =>
    cases happly : q.apply s with
    | ok next =>
      obtain ⟨-, -, rfl⟩ := apply_eq_ok.mp happly
      rw [(run_cons_of_ok happly steps).1, (ih _).1, (ih _).2]
      cases s <;> exact ⟨rfl, rfl⟩
    | error f =>
      rw [(run_cons_of_error happly steps).1]
      exact ih q

/-- Subqueries are the same if they are so field by field. -/
theorem ext {q r : Subquery} (htable : q.table = r.table) (halias : q.aliasName = r.aliasName)
    (hcolumns : q.columns = r.columns) (hjoin : q.join = r.join) (hfilter : q.filter = r.filter) :
    q = r := by
  cases q
  cases r
  cases htable
  cases halias
  cases hcolumns
  cases hjoin
  cases hfilter
  rfl

/-- A run is determined by its selections, and by the joins and the filters that it accepts,
    each in order. -/
theorem run_eq_run {q : Subquery} {steps others : List Step}
    (hselections : others.filterMap Step.selection? = steps.filterMap Step.selection?)
    (hjoins : (q.accepted others).filterMap Step.join? = (q.accepted steps).filterMap Step.join?)
    (hfilters : (q.accepted others).filterMap Step.filter? =
      (q.accepted steps).filterMap Step.filter?) : q.run others = q.run steps := by
  have htable := table_run q steps
  have htable' := table_run q others
  refine ext (htable'.1.trans htable.1.symm) (htable'.2.trans htable.2.symm) ?columns ?join ?filter
  case columns => rw [columns_run, columns_run, hselections]
  case join =>
    have hhead (o : Option Join) : o = o.toList.head? := by cases o <;> rfl
    rw [hhead (q.run others).join, hhead (q.run steps).join, ← joins_run, ← joins_run, hjoins]
  case filter => rw [filter_run, filter_run, hfilters]

/-! ### Reordering -/

/-- The same steps in another order that keeps the filters among each other and the selections
    among each other in place, and brings no filter in front of the join that stood behind it:
    the filters in front are the first ones of those that stood there. -/
structure IsReordering (steps others : List Step) : Prop where
  perm : others.Perm steps
  filters : others.filterMap Step.filter? = steps.filterMap Step.filter?
  selections : others.filterMap Step.selection? = steps.filterMap Step.selection?
  ahead : filtersAhead others <+: filtersAhead steps

/-- Of one join there is only one order. -/
theorem IsReordering.joins {steps others : List Step} (h : IsReordering steps others)
    (hone : (steps.filterMap Step.join?).length ≤ 1) :
    others.filterMap Step.join? = steps.filterMap Step.join? := by
  have hperm := h.perm.filterMap Step.join?
  match hjoins : steps.filterMap Step.join?, hone with
  | [], _ => exact (hjoins ▸ hperm).eq_nil
  | [j], _ => exact List.perm_singleton.mp (hjoins ▸ hperm)

/-- The join may come first. -/
theorem isReordering_join_first (before : List Step) (j : Join) (after : List Step) :
    IsReordering (before ++ .attach j :: after) (.attach j :: (before ++ after)) where
  perm := List.perm_middle.symm
  filters := by
    rw [List.filterMap_append, List.filterMap_cons_none rfl, List.filterMap_cons_none rfl,
      List.filterMap_append]
  selections := by
    rw [List.filterMap_append, List.filterMap_cons_none rfl, List.filterMap_cons_none rfl,
      List.filterMap_append]
  ahead := List.nil_prefix

/-- **The order of steps.** If a run accepts all of its steps, it does so in every other order
    that keeps filters and selections in place among each other and brings no filter in front
    of the join that stood behind it, and comes to the same subquery.  In particular the join
    may come first. -/
theorem reordering_agrees {q : Subquery} {steps : List Step} (h : q.AcceptsAll steps) :
    (∀ others, IsReordering steps others → q.AcceptsAll others ∧ q.run others = q.run steps) ∧
    ∀ before j after, steps = before ++ .attach j :: after →
      q.AcceptsAll (.attach j :: (before ++ after)) ∧
        q.run (.attach j :: (before ++ after)) = q.run steps := by
  have hagree (others : List Step) (hsame : IsReordering steps others) :
      q.AcceptsAll others ∧ q.run others = q.run steps := by
    obtain ⟨hone, hon, hfront, hall⟩ := acceptsAll_iff.mp h
    have hsteps : q.accepted steps = steps := h
    -- the order of joins and filters among themselves is the same
    have hjoins : others.filterMap Step.join? = steps.filterMap Step.join? := by
      apply hsame.joins
      rw [joinsBehind, List.length_append] at hone
      omega
    -- so every step is accepted in the other order too
    have hothers : q.accepted others = others := by
      apply acceptsAll_iff.mpr
      rw [joinsBehind, hjoins, hsame.filters]
      exact ⟨hone, hon, fun p hp => hfront p (hsame.ahead.subset hp), hall⟩
    -- and what has been joined, set and selected is the same
    refine ⟨hothers, run_eq_run hsame.selections ?_ ?_⟩
    · rw [hothers, hsteps, hjoins]
    · rw [hothers, hsteps, hsame.filters]
  refine ⟨hagree, ?_⟩
  rintro before j after rfl
  exact hagree _ (isReordering_join_first before j after)

/-- Teams with their members: the join comes first and the second selection in front of the
    second filter.  Behind that filter the join comes too late. -/
theorem reordering_agrees_teams :
    let q := ofTable "teams" (some "t")
    let join : Step := .attach ⟨.left, "members", some "m", .null "m.team_id" .isNotNull⟩
    let kept : Step := .restrict (.null "t.deleted_at" .isNull)
    let member : Step := .restrict (.null "m.user_id" .isNotNull)
    let steps := [.select ["id"], kept, join, member, .select ["t.id"]]
    let others := [join, .select ["id"], kept, .select ["t.id"], member]
    (q.AcceptsAll others ∧ q.run others = q.run steps) ∧
      (q.AcceptsAll (join :: [.select ["id"], kept, member, .select ["t.id"]]) ∧
        q.run (join :: [.select ["id"], kept, member, .select ["t.id"]]) = q.run steps) ∧
      (q.accepted [kept, member, join]).length = 2 := by
  intro q join kept member steps others
  have hsame : IsReordering steps others := by
    refine ⟨?_, rfl, rfl, List.nil_prefix⟩
    have hjoin : (join :: ([.select ["id"], kept] ++ [.select ["t.id"], member])).Perm
        ([.select ["id"], kept] ++ join :: [.select ["t.id"], member]) := List.perm_middle.symm
    have hselect : [.select ["t.id"], member].Perm [member, .select ["t.id"]] := .swap _ _ []
    exact hjoin.trans (hselect.append_left [.select ["id"], kept, join])
  obtain ⟨hagree, hjoinFirst⟩ := reordering_agrees (show q.AcceptsAll steps from rfl)
  exact ⟨hagree others hsame, hjoinFirst [.select ["id"], kept] _ [member, .select ["t.id"]] rfl,
    by decide +kernel⟩

end Subquery

end RowPolicy
