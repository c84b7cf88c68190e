import RowPolicy.Json.Record
import RowPolicy.Manifest.Draft

namespace RowPolicy

/-!
# Subqueries in a manifest

Subqueries and their joins are records with no fields but their own.  The
predicates in them are read by a reader that is passed along, since predicates
may hold subqueries in turn.

* `SubqueryDraft.ofJson`, `JoinDraft.ofJson` — the subquery and the join that a
  value describes.
-/

/-- How predicates are read. -/
abbrev PredicateReader : Type := Json → Except Json.Fault PredicateDraft

/-- The words for kinds of joins. -/
def JoinKind.words : Json.Words JoinKind where
  every := every
  word
    | inner => "inner"
    | left => "left"
    | right => "right"
    | full => "full"

/-! ### Joins -/

/-- The fields of a join. -/
inductive JoinDraft.Field where
  | kind
  | table
  | aliasName
  | on
  deriving DecidableEq, Repr

namespace JoinDraft

/-- What the fields of a join hold. -/
abbrev Content : Field → Type
  | .kind => JoinKind
  | .table => String
  | .aliasName => Option String
  | .on => PredicateDraft

/-- Joins as records; a join is an inner one if nothing else is said. -/
def record : Json.RecordType Field Content where
  title := "struct JoinSpec"
  fields := [.kind, .table, .aliasName, .on]
  label
    | .kind => "kind"
    | .table => "table"
    | .aliasName => "alias"
    | .on => "on"
  absent
    | .kind => some .inner
    | .table => none
    | .aliasName => some none
    | .on => none

/-- The content of a field. -/
def content (predicate : PredicateReader) : (f : Field) → Json → Except Json.Fault (Content f)
  | .kind, j => JoinKind.words.ofJson j
  | .table, j => j.asText
  | .aliasName, j => j.asOption Json.asText
  | .on, j => predicate j

/-- The join that a value describes. -/
def ofJson (predicate : PredicateReader) (j : Json) : Except Json.Fault JoinDraft := do
  let slots ← record.ofJson true (content predicate) j
  return {
    kind := ← record.get slots .kind
    table := ← record.get slots .table
    aliasName := ← record.get slots .aliasName
    on := ← record.get slots .on }

end JoinDraft

/-! ### Subqueries -/

/-- The fields of a subquery. -/
inductive SubqueryDraft.Field where
  | table
  | aliasName
  | columns
  | join
  | filter
  deriving DecidableEq, Repr

namespace SubqueryDraft

/-- What the fields of a subquery hold. -/
abbrev Content : Field → Type
  | .table => String
  | .aliasName => Option String
  | .columns => List String
  | .join => Option JoinDraft
  | .filter => Option PredicateDraft

/-- Subqueries as records; only the table is needed. -/
def record : Json.RecordType Field Content where
  title := "struct SubquerySpec"
  fields := [.table, .aliasName, .columns, .join, .filter]
  label
    | .table => "from"
    | .aliasName => "alias"
    | .columns => "select"
    | .join => "join"
    | .filter => "where"
  absent
    | .table => none
    | .aliasName => some none
    | .columns => some []
    | .join => some none
    | .filter => some none

/-- The content of a field. -/
def content (predicate : PredicateReader) : (f : Field) → Json → Except Json.Fault (Content f)
  | .table, j => j.asText
  | .aliasName, j => j.asOption Json.asText
  | .columns, j => j.asList Json.asText
  | .join, j => j.asOption (JoinDraft.ofJson predicate)
  | .filter, j => j.asOption predicate

/-- The subquery that a value describes. -/
def ofJson (predicate : PredicateReader) (j : Json) : Except Json.Fault SubqueryDraft := do
  let slots ← record.ofJson true (content predicate) j
  return {
    table := ← record.get slots .table
    aliasName := ← record.get slots .aliasName
    columns := ← record.get slots .columns
    join := ← record.get slots .join
    filter := ← record.get slots .filter }

end SubqueryDraft

end RowPolicy
