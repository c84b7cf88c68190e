import RowPolicy.Proofs.Predicate.Columns
import RowPolicy.Proofs.Sql.Naming
import RowPolicy.Proofs.Subquery.Scope

namespace RowPolicy

open Sql

/-!
# What accepted references resolve to

A step is accepted by the texts of its references, but a query resolves a column by the
name under which it sees a table.  The two agree for a table or an alias that is read as it
was given, and only then: tables and aliases are written without quotes where possible, and
the qualifiers of columns always with them.

* `FromTable`, `Subquery.fromTables` — the tables of a query as they were given;
* `Sql.Expr.tables` — the tables of a query as they are written;
* `FromTable.KeepsName`, `FromTable.TakesName` — the tables that are seen under the name they
  have in scope, and under another one;
* `Subquery.accepted_resolves` — what the references of accepted predicates resolve to;
* `Subquery.capitals_unresolved` — a reference that is accepted and resolves to nothing.
-/

/-! ### Tables of a query -/

/-- A table that a query reads from, and its alias if it has one. -/
structure FromTable where
  table : String
  aliasName : Option String
  deriving DecidableEq, Repr

namespace FromTable

/-- The name of a table in the scope that steps are checked against. -/
def scopeName (t : FromTable) : String := t.aliasName.getD t.table

/-- A table as it is written. -/
def expr (t : FromTable) : TableName := tableExpr t.table t.aliasName

/-- A table that is seen under its name in scope: an alias that is not folded, or without
    an alias a table that is one name, neither in quotes nor folded. -/
def KeepsName : FromTable → Prop
  | ⟨_, some a⟩ => a ≠ "" ∧ Unfolded a
  | ⟨table, none⟩ =>
    Reference.segments table = [table] ∧ Reference.quotedName? table = none ∧
      table ≠ "*" ∧ table ≠ "" ∧ Unfolded table

instance (t : FromTable) : Decidable t.KeepsName :=
  match t with
  | ⟨_, some a⟩ => inferInstanceAs (Decidable (a ≠ "" ∧ Unfolded a))
  | ⟨table, none⟩ =>
    inferInstanceAs (Decidable (Reference.segments table = [table] ∧
      Reference.quotedName? table = none ∧ table ≠ "*" ∧ table ≠ "" ∧ Unfolded table))

/-- A table that is seen under a name that is not its own in scope. -/
def TakesName (t : FromTable) (name : String) : Prop :=
  t.scopeName ≠ name ∧ t.expr.seenAs? = some name

/-- The query sees a table under its name in scope if and only if the name is kept. -/
theorem seenAs_scopeName {t : FromTable} : t.expr.seenAs? = some t.scopeName ↔ t.KeepsName := by
  obtain ⟨table, aliasName⟩ := t
  cases aliasName with
  | some a => exact denotes_identifierName
  | none => exact seenAs_escapedPath

/-- A table is seen under a name that it keeps, or that it takes from another. -/
theorem seenAs_iff {t : FromTable} {name : String} :
    t.expr.seenAs? = some name ↔ (t.scopeName = name ∧ t.KeepsName) ∨ t.TakesName name := by
  by_cases hscope : t.scopeName = name
  · subst hscope
    simp [seenAs_scopeName, TakesName]
  · simp [hscope, TakesName]

end FromTable

/-- The tables of a query, or of its source of rows, as they are written. -/
def Sql.Expr.tables : Expr → List TableName
  | table t => [t]
  | join _ l r _ => [l, r]
  | select _ source _ => source.tables
  | _ => []

namespace Subquery

/-- The tables of a subquery as they were given, the joined one behind the main one. -/
def fromTables (q : Subquery) : List FromTable :=
  ⟨q.table, q.aliasName⟩ :: (q.join.map fun j => ⟨j.table, j.aliasName⟩).toList

/-- The tables in the text of a subquery are those it is selected from. -/
theorem tables_expr (q : Subquery) : q.expr.tables = q.fromTables.map FromTable.expr := by
  obtain ⟨table, aliasName, columns, join, filter⟩ := q
  cases join with
  | none => rfl
  | some j =>
    obtain ⟨kind, joined, joinedAlias, on⟩ := j
    rfl

/-- The names in scope are those of the tables of the subquery. -/
theorem mem_available_fromTables {q : Subquery} {name : String} :
    name ∈ q.available ↔ ∃ t ∈ q.fromTables, t.scopeName = name := by
  rw [mem_available, fromTables]
  cases q.join with
  | none => simp [FromTable.scopeName, scopeName, eq_comm (a := name)]
  | some j => simp [FromTable.scopeName, scopeName, Join.scopeName, eq_comm (a := name)]

/-- The qualifier of a column in an accepted predicate is a name in scope at the end of the
    run. -/
theorem tableOf_mem_available {q : Subquery} {steps : List Step} {s : Step}
    (hs : s ∈ q.accepted steps) {p : Predicate} (hp : s.predicate? = some p) {path : List Name}
    (hpath : path ∈ p.expr.columns) {name : String} (hname : tableOf? path = some name) :
    name ∈ (q.run steps).available := by
  obtain ⟨reference, hreference, rfl⟩ := List.mem_map.mp (p.columns_expr hpath)
  have htable : name ∈ p.tables :=
    Predicate.mem_tables.mpr ⟨reference, hreference, tableOf_quotedPath hname⟩
  exact tables_subset_run hs hp htable

/-! ### Resolution -/

/-- **What accepted references resolve to.** In every predicate that a run accepts, a
    column outside nested queries has the name of a table in scope as its qualifier.  The
    query that is written sees this table under that name if and only if the table keeps its
    name.  If it does not, the qualifier resolves to nothing, or to a table with another name
    in scope that takes the name. -/
theorem accepted_resolves (table : String) (aliasName : Option String) (steps : List Step) :
    let start := ofTable table aliasName
    let q := start.run steps
    ∀ s ∈ start.accepted steps, ∀ p, s.predicate? = some p →
      ∀ path ∈ p.expr.columns, ∀ name, tableOf? path = some name →
        (∃ t ∈ q.fromTables, t.scopeName = name) ∧
        (∀ t ∈ q.fromTables, t.scopeName = name → (t.expr.seenAs? = some name ↔ t.KeepsName)) ∧
        ((∃ t ∈ q.expr.tables, t.seenAs? = some name) ↔
          ∃ t ∈ q.fromTables, (t.scopeName = name ∧ t.KeepsName) ∨ t.TakesName name) := by
  intro start q s hs p hp path hpath name hname
  refine ⟨?_, ?_, ?_⟩
  -- the qualifier was in scope when the step was accepted, and stays so
  · have havailable : name ∈ q.available := tableOf_mem_available hs hp hpath hname
    exact mem_available_fromTables.mp havailable
  · rintro t - rfl
    exact FromTable.seenAs_scopeName
  -- table by table, what is written is seen as it is read
  · rw [tables_expr]
    constructor
    · rintro ⟨t, ht, hseen⟩
      obtain ⟨given, hgiven, rfl⟩ := List.mem_map.mp ht
      exact ⟨given, hgiven, FromTable.seenAs_iff.mp hseen⟩
    · rintro ⟨t, ht, hseen⟩
      exact ⟨t.expr, List.mem_map_of_mem ht, FromTable.seenAs_iff.mpr hseen⟩

/-- Teams with their members: a filter on the members resolves to the joined table. -/
theorem accepted_resolves_members :
    let on : Predicate := .compare "m.team_id" .eq (.predicate (.null "t.id" .isNotNull))
    let filter : Predicate := .null "m.user_id" .isNull
    let steps : List Step :=
      [.attach ⟨.inner, "public.Members", some "m", on⟩, .restrict filter]
    let q := (ofTable "Teams" (some "t")).run steps
    [.quoted "m", .quoted "user_id"] ∈ filter.expr.columns ∧
      ∃ t ∈ q.expr.tables, t.seenAs? = some "m" := by
  intro on filter steps q
  have hcolumn : [.quoted "m", .quoted "user_id"] ∈ filter.expr.columns := by decide +kernel
  -- the alias of the joined table is written as it was given, so it is seen under it
  have hmembers : ⟨"public.Members", some "m"⟩ ∈ q.fromTables := by decide +kernel
  have haccepted : .restrict filter ∈ (ofTable "Teams" (some "t")).accepted steps := by
    rw [show (ofTable "Teams" (some "t")).accepted steps = steps from rfl]
    exact List.mem_cons_of_mem _ List.mem_cons_self
  obtain ⟨-, -, hresolves⟩ :=
    accepted_resolves "Teams" (some "t") steps _ haccepted filter rfl _ hcolumn "m" rfl
  exact ⟨hcolumn, hresolves.mpr ⟨_, hmembers, .inl ⟨rfl, by decide +kernel⟩⟩⟩

/-- A filter may name a table with capitals by the text it was given as.  The query sees the
    table in lower case, and no table under the name in the filter. -/
theorem capitals_unresolved :
    let p : Predicate := .compare "Teams.id" .eq (.int 1)
    let steps : List Step := [.restrict p]
    let q := (ofTable "Teams" none).run steps
    q.sql = "(SELECT * FROM Teams WHERE \"Teams\".\"id\" = 1)" ∧
      .restrict p ∈ (ofTable "Teams" none).accepted steps ∧
      ∃ path ∈ p.expr.columns, tableOf? path = some "Teams" ∧
        q.expr.tables.map TableName.seenAs? = [some "teams"] ∧
        ¬ ∃ t ∈ q.expr.tables, t.seenAs? = some "Teams" := by
  intro p steps q
  refine ⟨by decide +kernel, List.mem_cons_self, [.quoted "Teams", .quoted "id"],
    by decide +kernel, rfl, by decide +kernel, by decide +kernel⟩

end Subquery

end RowPolicy
