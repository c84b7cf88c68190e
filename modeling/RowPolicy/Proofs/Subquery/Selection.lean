import RowPolicy.Proofs.Subquery.Resolve

namespace RowPolicy

open Sql

/-!
# Columns that a subquery selects

Joins and filters are refused if they refer to tables out of scope.  A selection is taken as
it is given, in place of earlier ones, before the join or behind it.  So its columns are in
scope if the run as a whole brings in their tables, and nothing else sees to it:

* `Subquery.Step.selection?`, `Subquery.columns_run` — the columns behind a run are those of
  its last selection;
* `Subquery.mem_available_run` — the tables in scope behind a run;
* `Subquery.SelectsInScope`, `Subquery.selectsInScope_iff` — when the selected columns are in
  scope;
* `Subquery.selects_outer_column` — a column of a table that the subquery does not read.
-/

namespace Subquery

/-! ### Selections along a run -/

/-- The columns that a step selects, if it selects any. -/
def Step.selection? : Step → Option (List String)
  | select columns => some columns
  | _ => none

/-- The columns of the last selection among some steps; all columns if there is none. -/
def lastSelection (steps : List Step) : List String :=
  (steps.filterMap Step.selection?).getLast?.getD []

/-- A step selects its own columns, or leaves those that are selected. -/
theorem columns_effect (q : Subquery) (s : Step) :
    (q.effect s).columns = s.selection?.getD q.columns := by
  cases s <;> rfl

/-- A step that is refused selects nothing, since no selection is refused. -/
theorem selection_of_error {q : Subquery} {s : Step} {f : Fault} (h : q.apply s = .error f) :
    s.selection? = none := by
  cases s with
  | select columns => cases h
  | _ => rfl

/-- The columns behind a run are those of its last selection, or those at its start. -/
theorem columns_run (q : Subquery) (steps : List Step) :
    (q.run steps).columns = (steps.filterMap Step.selection?).getLast?.getD q.columns := by
  induction steps generalizing q with
  | nil => rfl
  | cons s steps ih =>
    cases happly : q.apply s with
    | ok next =>
      obtain ⟨-, -, rfl⟩ := apply_eq_ok.mp happly
      rw [(run_cons_of_ok happly steps).1, ih, columns_effect, List.filterMap_cons]
      cases s.selection? with
      | none => rfl
      | some columns =>
        -- a later selection replaces this one
        show _ = (columns :: steps.filterMap Step.selection?).getLast?.getD q.columns
        rw [List.getLast?_cons]
        rfl
    | error f =>
      rw [(run_cons_of_error happly steps).1, ih,
        List.filterMap_cons_none (selection_of_error happly)]

/-! ### Tables in scope -/

/-- No step renames the table. -/
theorem scopeName_effect (q : Subquery) (s : Step) : (q.effect s).scopeName = q.scopeName := by
  cases s <;> rfl

/-- No run renames the table. -/
theorem scopeName_run (q : Subquery) (steps : List Step) :
    (q.run steps).scopeName = q.scopeName := by
  induction steps generalizing q with
  | nil => rfl
  | cons s steps ih =>
    cases happly : q.apply s with
    | ok next =>
      obtain ⟨-, -, rfl⟩ := apply_eq_ok.mp happly
      rw [(run_cons_of_ok happly steps).1, ih, scopeName_effect]
    | error f => rw [(run_cons_of_error happly steps).1, ih]

/-- In scope behind a run are the main table and what the run has joined. -/
theorem mem_available_run {q : Subquery} (h : q.join = none) {steps : List Step} {name : String} :
    name ∈ (q.run steps).available ↔
      name = q.scopeName ∨ ∃ j ∈ (q.accepted steps).filterMap Step.join?, name = j.scopeName := by
  have hjoins := joins_run q steps
  rw [h, Option.toList_none, List.nil_append] at hjoins
  rw [mem_available, scopeName_run, hjoins]
  simp only [Option.mem_toList]

/-! ### Selected columns -/

/-- The qualifiers of the selected columns name tables in scope. -/
def SelectsInScope (q : Subquery) : Prop := ∀ name ∈ qualifiers q.columns, name ∈ q.available

instance (q : Subquery) : Decidable q.SelectsInScope :=
  inferInstanceAs (Decidable (∀ name ∈ qualifiers q.columns, name ∈ q.available))

/-- **Selected columns in scope.** Behind every run the selected columns are those of the last
    selection.  They are in scope if and only if each of their qualifiers is the name of the
    main table, or of the table that the run has joined, be it before or behind the selection.
    The next selection is accepted whatever its qualifiers are, so it may leave the scope. -/
theorem selectsInScope_iff (table : String) (aliasName : Option String) (steps : List Step) :
    let start := ofTable table aliasName
    let q := start.run steps
    q.columns = lastSelection steps ∧
    (q.SelectsInScope ↔ ∀ name ∈ qualifiers (lastSelection steps),
      name = start.scopeName ∨
        ∃ j ∈ (start.accepted steps).filterMap Step.join?, name = j.scopeName) ∧
    ∀ columns, q.apply (.select columns) = .ok (q.select columns) ∧
      ((q.select columns).SelectsInScope ↔ ∀ name ∈ qualifiers columns, name ∈ q.available) := by
  intro start q
  -- selecting is never refused, so the last selection stands
  have hcolumns : q.columns = lastSelection steps := columns_run start steps
  refine ⟨hcolumns, ?_, fun columns => ⟨rfl, Iff.rfl⟩⟩
  -- the scope at the end is the table and the join that was accepted
  have hscope (name : String) : name ∈ q.available ↔ name = start.scopeName ∨
      ∃ j ∈ (start.accepted steps).filterMap Step.join?, name = j.scopeName :=
    mem_available_run rfl
  rw [SelectsInScope, hcolumns]
  simp only [hscope]

/-- A column of a table that the subquery does not read is selected.  The query that is
    written sees no such table, so where it stands in a policy on that table the column is
    one of the outer row. -/
theorem selects_outer_column :
    let q := (ofTable "org_members" none).run [.select ["posts.org_id"]]
    q.sql = "(SELECT posts.org_id FROM org_members)" ∧
      (qualifiers q.columns = ["posts"] ∧ q.available = ["org_members"]) ∧
      (tableOf? (escapedPath "posts.org_id") = some "posts" ∧
        q.expr.tables.map TableName.seenAs? = [some "org_members"]) ∧
      ¬ q.SelectsInScope := by
  decide +kernel

example : ((ofTable "teams" none).run
    [.select ["m.user_id", "id"], .attach ⟨.inner, "members", some "m", .null "m.id" .isNull⟩,
      .attach ⟨.left, "orgs", none, .null "orgs.id" .isNull⟩]).SelectsInScope := by
  decide +kernel

end Subquery

end RowPolicy
