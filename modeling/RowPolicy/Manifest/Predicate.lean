import RowPolicy.Json.Kinds
import RowPolicy.Manifest.Operand
import RowPolicy.Manifest.Subquery

namespace RowPolicy

/-!
# Predicates in a manifest

A predicate is a record that is told by its kind.  The arguments of a call and
the members of a group are predicates in turn.

* `PredicateDraft.Kind` — the kinds, with their words, fields and defaults;
* `PredicateDraft.ofJson`, `PredicateDraft.ofReading` — the predicate that a
  value or a text describes.
-/

/-- The argument that a value describes: a text is a column. -/
def ArgumentDraft.ofJson (predicate : PredicateReader) : Json → Except Json.Fault ArgumentDraft
  | .text reference => .ok (.column reference)
  | j =>
    match predicate j with
    | .ok p => .ok (.predicate p)
    | .error _ => .error (.mismatch (.noForm "ArgSpec"))

/-! ### Kinds of predicates -/

namespace PredicateDraft

/-- The kinds of predicates. -/
inductive Kind where
  | compare (op : Comparison)
  | pattern (op : Matching)
  | member (op : Membership)
  | null (test : NullTest)
  | isOwner
  | isPublic
  | belongsToTenant
  | isMemberOf
  | userBelongsTo
  | releasedBefore
  | hasRole
  | alwaysTrue
  | call
  | group (op : Connective)
  deriving DecidableEq, Repr

namespace Kind

/-- The word for a kind. -/
def word : Kind → String
  | compare .eq => "eq"
  | compare .ne => "neq"
  | compare .gt => "gt"
  | compare .ge => "gte"
  | compare .lt => "lt"
  | compare .le => "lte"
  | pattern .like => "like"
  | pattern .ilike => "ilike"
  | member .inside => "in"
  | member .contains => "contains"
  | null .isNull => "is_null"
  | null .isNotNull => "is_not_null"
  | isOwner => "is_owner"
  | isPublic => "is_public"
  | belongsToTenant => "belongs_to_tenant"
  | isMemberOf => "is_member_of"
  | userBelongsTo => "user_belongs_to"
  | releasedBefore => "released_before"
  | hasRole => "has_role"
  | alwaysTrue => "always_true"
  | call => "call"
  | group .and => "and"
  | group .or => "or"

/-- All kinds, in the order of their numbers. -/
def every : List Kind :=
  [compare .eq, compare .ne, compare .gt, compare .ge, compare .lt, compare .le, pattern .like,
   pattern .ilike, member .inside, member .contains, null .isNull, null .isNotNull, isOwner,
   isPublic, belongsToTenant, isMemberOf, userBelongsTo, releasedBefore, hasRole, alwaysTrue,
   call, group .and, group .or]

end Kind

/-- Predicates as records told by their kind. -/
def kinds : Json.Kinds Kind where
  every := Kind.every
  word := Kind.word
  name := "ConditionSpec"

/-! ### Fields of predicates -/

/-- The fields that predicates have. -/
inductive Field where
  | column
  | operand
  | pattern
  | values
  | subquery
  | setting
  | joinTable
  | foreignKey
  | localKey
  | table
  | select
  | date
  | role
  | function
  | args
  | members
  deriving DecidableEq, Repr

/-- The key of a field. -/
def Field.label : Field → String
  | column => "column"
  | operand => "value"
  | pattern => "pattern"
  | values => "values"
  | subquery => "subquery"
  | setting => "key"
  | joinTable => "join_table"
  | foreignKey => "foreign_key"
  | localKey => "local_key"
  | table => "table"
  | select => "select"
  | date => "date"
  | role => "role"
  | function => "function"
  | args => "args"
  | members => "conditions"

/-- What the fields of a predicate hold. -/
abbrev Content : Field → Type
  | .operand => OperandDraft
  | .values => Option (List OperandDraft)
  | .subquery => Option SubqueryDraft
  | .select => Option String
  | .date => Option Instant
  | .args => List ArgumentDraft
  | .members => List PredicateDraft
  | _ => String

namespace Kind

/-- The fields of a kind, in order. -/
def fields : Kind → List Field
  | compare _ => [.column, .operand]
  | pattern _ => [.column, .pattern]
  | member _ => [.column, .values, .subquery]
  | null _ | isOwner | isPublic => [.column]
  | belongsToTenant => [.column, .setting]
  | isMemberOf => [.joinTable, .foreignKey, .localKey]
  | userBelongsTo => [.column, .table, .select]
  | releasedBefore => [.column, .date]
  | hasRole => [.role, .table]
  | alwaysTrue => []
  | call => [.function, .args]
  | group _ => [.members]

/-- The column that a kind is about if none is given. -/
def defaultColumn : Kind → Option String
  | isOwner => some Predicate.Default.ownerColumn
  | isPublic => some Predicate.Default.publicColumn
  | belongsToTenant => some Predicate.Default.tenantColumn
  | _ => none

/-- The table that a kind looks into if none is given. -/
def defaultTable : Kind → Option String
  | hasRole => some Predicate.Default.roleTable
  | _ => none

/-- The default of a field, if it may be left out. -/
def absent (kind : Kind) : (f : Field) → Option (Content f)
  | .column => kind.defaultColumn
  | .table => kind.defaultTable
  | .setting => some Predicate.Default.tenantSetting
  | .localKey => some Predicate.Default.localKey
  | .values => some none
  | .subquery => some none
  | .select => some none
  | .date => some none
  | .args => some []
  | .operand => none
  | .pattern => none
  | .joinTable => none
  | .foreignKey => none
  | .role => none
  | .function => none
  | .members => none

/-- A kind as a type of records. -/
def record (kind : Kind) : Json.RecordType Field Content where
  title := kinds.recordTitle kind
  fields := kind.fields
  label := Field.label
  absent := kind.absent

/-- The predicate of a kind with some contents. -/
def build (kind : Kind) (get : (f : Field) → Except Json.Fault (Content f)) :
    Except Json.Fault PredicateDraft := do
  match kind with
  | compare op => return .compare (← get .column) op (← get .operand)
  | pattern op => return .pattern (← get .column) op (← get .pattern)
  | member op => return .member (← get .column) op (← get .values) (← get .subquery)
  | null test => return .null (← get .column) test
  | isOwner => return .isOwner (← get .column)
  | isPublic => return .isPublic (← get .column)
  | belongsToTenant => return .belongsToTenant (← get .column) (← get .setting)
  | isMemberOf => return .isMemberOf (← get .joinTable) (← get .foreignKey) (← get .localKey)
  | userBelongsTo => return .userBelongsTo (← get .column) (← get .table) (← get .select)
  | releasedBefore => return .releasedBefore (← get .column) (← get .date)
  | hasRole => return .hasRole (← get .role) (← get .table)
  | alwaysTrue => return .alwaysTrue
  | call => return .call (← get .function) (← get .args)
  | group op => return .group op (← get .members)

end Kind

/-- The content of a field. -/
def content (predicate : PredicateReader) : (f : Field) → Json → Except Json.Fault (Content f)
  | .operand, j => OperandDraft.ofJson j
  | .values, j => j.asOption fun j => j.asList OperandDraft.ofJson
  | .subquery, j => j.asOption (SubqueryDraft.ofJson predicate)
  | .select, j => j.asOption Json.asText
  | .date, j => j.asOption Json.asInstant
  | .args, j => j.asList (ArgumentDraft.ofJson predicate)
  | .members, j => j.asList predicate
  | .column, j => j.asText
  | .pattern, j => j.asText
  | .setting, j => j.asText
  | .joinTable, j => j.asText
  | .foreignKey, j => j.asText
  | .localKey, j => j.asText
  | .table, j => j.asText
  | .role, j => j.asText
  | .function, j => j.asText

/-! ### Predicates -/

/-- The predicate of a kind that a record without its tag describes. -/
def ofRecord (predicate : PredicateReader) (kind : Kind) (j : Json) :
    Except Json.Fault PredicateDraft := do
  let slots ← kind.record.ofJson false (content predicate) j
  kind.build fun f => kind.record.get slots f

/-- The predicate that a value describes, if it is nested no deeper than
    `depth`; a value without any depth is no record. -/
def ofJsonWithin : (depth : Nat) → PredicateReader
  | 0, j => Json.wrongType j kinds.title
  | depth + 1, j => do
    let (kind, rest) ← kinds.ofJson j
    ofRecord (ofJsonWithin depth) kind rest

/-- The predicate that a value describes. -/
def ofJson : PredicateReader := fun j => ofJsonWithin j.height j

/-- The predicate that a text describes. -/
def ofReading (r : Json.Reading) : Except Json.Fault PredicateDraft := do
  let (kind, rest) ← kinds.ofReading r
  ofRecord ofJson kind rest

example : Kind.every.length = 23 ∧ (Kind.every.map Kind.word).Nodup := by decide +kernel

example (kind : Kind) : kind ∈ Kind.every := by
  cases kind with
  | compare op => cases op <;> decide
  | pattern op => cases op <;> decide
  | member op => cases op <;> decide
  | null test => cases test <;> decide
  | group op => cases op <;> decide
  | _ => decide

end PredicateDraft

end RowPolicy
