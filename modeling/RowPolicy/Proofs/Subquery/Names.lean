import Mathlib.Data.List.Nodup
import Mathlib.Data.Option.Basic
import RowPolicy.Predicate.Forms
import RowPolicy.Proofs.Subquery.Selection

namespace RowPolicy

open Sql

/-!
# Names of the tables of a subquery

A join is refused for the tables that its `ON` predicate refers to, never for the name that
its own table takes.  So a run may join a table under the name of the main table, and the
list of names in scope, which has each name once, does not show it:

* `Subquery.Admits`, `Subquery.join_run` — which of its joins a run accepts;
* `Subquery.DistinctNames` — the two tables of a subquery go by different names;
* `Subquery.count_tableNames` — how many tables a name in scope designates;
* `Subquery.distinctNames_iff` — when the names differ behind a run, and what follows;
* `Subquery.joins_own_name` — a table that is joined to itself.
-/

namespace Subquery

/-! ### The join of a run -/

/-- A join whose `ON` predicate refers to no table but the main one and the joined one. -/
def Admits (q : Subquery) (j : Join) : Prop :=
  ∀ table ∈ j.on.tables, table = q.scopeName ∨ table = j.scopeName

instance (q : Subquery) : DecidablePred q.Admits := fun j =>
  inferInstanceAs (Decidable (∀ table ∈ j.on.tables, table = q.scopeName ∨ table = j.scopeName))

/-- A step leaves the table as it is, and so which joins are admitted. -/
theorem admits_effect {q : Subquery} {s : Step} {j : Join} :
    (q.effect s).Admits j ↔ q.Admits j := by
  rw [Admits, Admits, scopeName_effect]

/-- A subquery without a join accepts the joins that it admits. -/
theorem attach_accepted_iff {q : Subquery} (h : q.join = none) {j : Join} :
    (∃ next, q.apply (.attach j) = .ok next) ↔ q.Admits j := by
  have hfirst : ¬ q.IsSecondJoin (.attach j) := by simp [isSecondJoin_attach, h]
  have hallowed : Step.allowed q (.attach j) = [q.scopeName, j.scopeName] := by
    rw [Step.allowed, available, h]
    rfl
  have hinside : Step.outside q (.attach j) = [] ↔ q.Admits j := by
    rw [Step.outside_eq_missing q (p := j.on) rfl, hallowed]
    simp [Predicate.missing, Admits, List.filter_eq_nil_iff, or_iff_not_imp_left]
  simp [apply_eq_ok, hfirst, hinside]

/-- Behind an accepted join no other one takes its place. -/
theorem join_run_of_some {q : Subquery} {j : Join} (h : q.join = some j) (steps : List Step) :
    (q.run steps).join = some j := by
  have hjoins := joins_run q steps
  rw [h, Option.toList_some, List.singleton_append] at hjoins
  cases hrun : (q.run steps).join with
  | none => simp [hrun] at hjoins
  | some k =>
    rw [hrun, Option.toList_some, List.cons.injEq] at hjoins
    rw [hjoins.1]

/-- The join behind a run is the first one that is admitted.  Selections and filters, be they
    accepted or not, have no part in it. -/
theorem join_run {q : Subquery} (h : q.join = none) (steps : List Step) :
    (q.run steps).join = (steps.filterMap Step.join?).find? fun j => q.Admits j := by
  induction steps generalizing q with
  | nil => exact h
  | cons s steps ih =>
    cases happly : q.apply s with
    | ok next =>
      -- the step is accepted, and if it is a join, it stays
      obtain ⟨hfirst, -, rfl⟩ := apply_eq_ok.mp happly
      have hjoin := join_effect hfirst
      rw [h, Option.toList_none, List.nil_append] at hjoin
      rw [(run_cons_of_ok happly steps).1]
      cases hs : s.join? with
      | none =>
        have hnone : (q.effect s).join = none := by simpa [hs] using hjoin
        simp only [ih hnone, List.filterMap_cons_none hs, admits_effect]
      | some j =>
        -- the first join that is admitted is the one to stay
        obtain rfl : s = .attach j := by
          cases s with
          | attach k =>
            cases hs
            rfl
          | _ => cases hs
        have hadmits : q.Admits j := (attach_accepted_iff h).mp ⟨_, happly⟩
        rw [List.filterMap_cons_some hs, List.find?_cons_of_pos (by simpa using hadmits)]
        exact join_run_of_some rfl steps
    | error f =>
      -- the step is refused, and changes nothing
      rw [(run_cons_of_error happly steps).1, ih h]
      cases s with
      | attach j =>
        have hrefused : ¬ q.Admits j := by
          intro hadmits
          obtain ⟨next, hnext⟩ := (attach_accepted_iff h).mpr hadmits
          rw [happly] at hnext
          cases hnext
        exact (List.find?_cons_of_neg (by simpa using hrefused)).symm
      | _ => rfl

/-! ### Names -/

/-- The joined table, if there is one, goes by another name than the main table. -/
def DistinctNames (q : Subquery) : Prop := ∀ j, q.join = some j → q.scopeName ≠ j.scopeName

instance (q : Subquery) : Decidable q.DistinctNames :=
  match h : q.join with
  | none => isTrue fun j hj => by simp [h] at hj
  | some j => decidable_of_iff (q.scopeName ≠ j.scopeName) (by simp [DistinctNames, h])

/-- The names that the tables of a subquery go by, that of the joined table last. -/
def tableNames (q : Subquery) : List String := q.fromTables.map FromTable.scopeName

/-- The names in a query are its own table's and that of the joined one. -/
theorem tableNames_eq (q : Subquery) :
    q.tableNames = q.scopeName :: (q.join.map Join.scopeName).toList := by
  rw [tableNames, fromTables]
  cases q.join <;> rfl

/-- The names differ exactly if none of them occurs twice. -/
theorem distinctNames_iff_nodup {q : Subquery} : q.DistinctNames ↔ q.tableNames.Nodup := by
  rw [DistinctNames, tableNames_eq]
  cases q.join <;> simp

/-- A name in scope designates one table if and only if the two tables have different
    names. -/
theorem count_tableNames {q : Subquery} {name : String} (h : name ∈ q.available) :
    q.tableNames.count name = 1 ↔ q.DistinctNames := by
  rw [mem_available] at h
  rw [DistinctNames, tableNames_eq]
  cases hjoin : q.join with
  | none =>
    -- without a join there is one name, so it occurs once
    have hmain : name = q.scopeName := by simpa [hjoin] using h
    simp [hmain]
  | some j =>
    have hname : name = q.scopeName ∨ name = j.scopeName := by simpa [hjoin] using h
    simp only [Option.map_some, Option.toList_some, Option.some.injEq, forall_eq']
    -- under one name both tables would be meant
    by_cases hsame : q.scopeName = j.scopeName
    · rw [← hsame, or_self] at hname
      simp [← hsame, hname]
    · obtain rfl | rfl := hname
      · simp [hsame]
      · simp [hsame]

/-- Where tables keep their names, the query that is written sees them by these. -/
theorem seenAs_tables {q : Subquery} (h : ∀ t ∈ q.fromTables, t.KeepsName) :
    q.expr.tables.map TableName.seenAs? = q.tableNames.map some := by
  rw [tables_expr, tableNames, List.map_map, List.map_map]
  exact List.map_congr_left fun t ht => FromTable.seenAs_scopeName.mpr (h t ht)

/-- **Names of joined tables.** Behind every run the subquery has the first of the joins whose
    `ON` predicate refers to nothing but the main table and the joined one; the name of the
    joined table has no part in it.  So the two tables have different names if and only if
    that join has another name than the main table, and this is also when a qualifier in an
    accepted predicate designates one table, and, for tables that keep their names, when the
    query that is written sees no two tables by one name. -/
theorem distinctNames_iff (table : String) (aliasName : Option String) (steps : List Step) :
    let start := ofTable table aliasName
    let q := start.run steps
    let accepted := (steps.filterMap Step.join?).find? fun j => start.Admits j
    q.join = accepted ∧
    (q.DistinctNames ↔ ∀ j, accepted = some j → start.scopeName ≠ j.scopeName) ∧
    (∀ s ∈ start.accepted steps, ∀ p, s.predicate? = some p → ∀ name ∈ p.tables,
      (q.tableNames.count name = 1 ↔ q.DistinctNames)) ∧
    ((∀ t ∈ q.fromTables, t.KeepsName) →
      ((q.expr.tables.map TableName.seenAs?).Nodup ↔ q.DistinctNames)) := by
  intro start q accepted
  have hjoin : q.join = accepted := join_run rfl steps
  refine ⟨hjoin, ?_, ?_, ?_⟩
  -- the own name is that of the start, and the join the accepted one
  · rw [DistinctNames, hjoin, scopeName_run]
  · intro s hs p hp name hname
    exact count_tableNames (tables_subset_run hs hp hname)
  · intro hkeeps
    rw [seenAs_tables hkeeps, distinctNames_iff_nodup]
    exact List.nodup_map_iff (Option.some_injective String)

/-- A table joined to itself without an alias is accepted.  The query that is written names it
    twice, and a filter on it is accepted although it may mean either. -/
theorem joins_own_name :
    let filter : Predicate := .null "t.id" .isNotNull
    let q := (ofTable "t" none).run [.attach ⟨.inner, "t", none, .alwaysTrue⟩, .restrict filter]
    q.sql = "(SELECT * FROM t INNER JOIN t ON TRUE WHERE \"t\".\"id\" IS NOT NULL)" ∧
      q.expr.tables.map TableName.seenAs? = [some "t", some "t"] ∧
      q.available = ["t"] ∧ ¬ q.DistinctNames := by
  decide +kernel

end Subquery

end RowPolicy
