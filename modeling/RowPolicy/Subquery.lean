import RowPolicy.Fault
import RowPolicy.Predicate.Combine
import RowPolicy.Predicate.Qualifiers

namespace RowPolicy

/-!
# Subqueries — built so that every table is in scope

A subquery sees the table it reads from and the table it joins, each under its
alias if it has one.  A join or a filter that refers to any other table is
refused when it is attached.

* `Subquery.available` — the names in scope;
* `Subquery.attach`, `Subquery.restrict` — a join and a filter, checked;
* `Subquery.Step`, `Subquery.apply` — one change of a subquery, as data.
-/

/-- The name a joined table is known by. -/
def Join.scopeName (j : Join) : String := j.aliasName.getD j.table

namespace Subquery

/-- A subquery that selects everything from a table. -/
def ofTable (table : String) (aliasName : Option String) : Subquery :=
  { table, aliasName, columns := [], join := none, filter := none }

/-- The name the main table of a subquery is known by. -/
def scopeName (q : Subquery) : String := q.aliasName.getD q.table

/-- The tables in scope: the main table and the joined one. -/
def available (q : Subquery) : List String :=
  match q.join with
  | none => [q.scopeName]
  | some j => addTable [q.scopeName] j.scopeName

/-- Selects other columns in place of those so far. -/
def select (q : Subquery) (columns : List String) : Subquery := { q with columns }

/-- Attaches the one join a subquery may have.  Its `ON` predicate may refer to
    the tables in scope and to the joined table. -/
def attach (q : Subquery) (j : Join) : Except Fault Subquery :=
  match q.join with
  | some existing => .error (.duplicateJoin q.table existing.table)
  | none =>
    let allowed := q.available ++ [j.scopeName]
    match j.on.missing allowed with
    | [] => .ok { q with join := some j }
    | missing =>
      .error (.missingTables .joinOn missing allowed (.onlyJoined q.available j.scopeName))

/-- Adds a filter without looking at its tables; an earlier filter still
    holds. -/
def addFilter (q : Subquery) (p : Predicate) : Subquery :=
  { q with filter := some (match q.filter with
    | none => p
    | some existing => existing.and p) }

/-- What to advise when a filter refers to missing tables. -/
def hint (q : Subquery) (missing : List String) : Hint :=
  match q.join, missing with
  | some j, _ => .alreadyJoins j.scopeName
  | none, [table] => .addJoin table
  | none, tables => .tooMany tables

/-- Adds a filter whose tables are all in scope; an earlier filter still
    holds. -/
def restrict (q : Subquery) (p : Predicate) : Except Fault Subquery :=
  match p.missing q.available with
  | [] => .ok (q.addFilter p)
  | missing => .error (.missingTables .filter missing q.available (q.hint missing))

/-! ### Steps -/

/-- One change of a subquery. -/
inductive Step where
  | select (columns : List String)
  | attach (j : Join)
  | restrict (p : Predicate)

/-- A subquery after one change. -/
def apply (q : Subquery) : Step → Except Fault Subquery
  | .select columns => .ok (q.select columns)
  | .attach j => q.attach j
  | .restrict p => q.restrict p

end Subquery

end RowPolicy
