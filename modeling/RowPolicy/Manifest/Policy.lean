import RowPolicy.Json.Document
import RowPolicy.Manifest.Predicate

namespace RowPolicy

/-!
# Policies, groups and manifests as JSON

* `Template.ofReading` — a template, told by its kind;
* `PolicyDraft.ofReading`, `GroupDraft.ofReading`, `Manifest.ofReading` — the
  records around it, each with no fields but its own;
* `Manifest.ofText` — the manifest that a text describes.
-/

/-- The words for commands. -/
def Command.words : Json.Words Command where
  every := every
  word := sql

/-! ### Templates -/

namespace Template

/-- The kinds of templates. -/
inductive Kind where
  | userOwned
  | tenantIsolation
  | publicAccess
  | roleAccess
  deriving DecidableEq, Repr

/-- Templates as records told by their kind. -/
def kinds : Json.Kinds Kind where
  every := [.userOwned, .tenantIsolation, .publicAccess, .roleAccess]
  word
    | .userOwned => "user_owned"
    | .tenantIsolation => "tenant_isolation"
    | .publicAccess => "public_access"
    | .roleAccess => "role_access"
  name := "TemplateSpec"

/-- The fields that templates have. -/
inductive Field where
  | column
  | command
  | setting
  | role
  deriving DecidableEq, Repr

/-- What the fields of a template hold. -/
abbrev Content : Field → Type
  | .column => String
  | .command => Command
  | .setting => String
  | .role => String

namespace Kind

/-- The fields of a kind, in order. -/
def fields : Kind → List Field
  | userOwned => [.column, .command]
  | tenantIsolation => [.column, .setting]
  | publicAccess => [.column]
  | roleAccess => [.role, .command]

/-- The column that a kind is about if none is given. -/
def defaultColumn : Kind → Option String
  | userOwned => some Predicate.Default.ownerColumn
  | tenantIsolation => some Predicate.Default.tenantColumn
  | publicAccess => some Predicate.Default.publicColumn
  | roleAccess => none

/-- A kind as a type of records. -/
def record (kind : Kind) : Json.RecordType Field Content where
  title := kinds.recordTitle kind
  fields := kind.fields
  label
    | .column => "column"
    | .command => "operation"
    | .setting => "session_key"
    | .role => "role"
  absent
    | .column => kind.defaultColumn
    | .command => some .all
    | .setting => some Predicate.Default.tenantSetting
    | .role => none

/-- The template of a kind with some contents. -/
def build (kind : Kind) (get : (f : Field) → Except Json.Fault (Content f)) :
    Except Json.Fault Template := do
  match kind with
  | userOwned => return .userOwned (← get .column) (← get .command)
  | tenantIsolation => return .tenantIsolation (← get .column) (← get .setting)
  | publicAccess => return .publicAccess (← get .column)
  | roleAccess => return .roleAccess (← get .role) (← get .command)

end Kind

/-- The content of a field. -/
def content : (f : Field) → Json → Except Json.Fault (Content f)
  | .column, j => j.asText
  | .command, j => Command.words.ofJson j
  | .setting, j => j.asText
  | .role, j => j.asText

/-- The template that a text describes. -/
def ofReading (r : Json.Reading) : Except Json.Fault Template := do
  let (kind, rest) ← kinds.ofReading r
  let slots ← kind.record.ofJson false content rest
  kind.build fun f => kind.record.get slots f

end Template

/-! ### Policies -/

/-- The fields of a policy. -/
inductive PolicyDraft.Field where
  | table
  | template
  | name
  | command
  | role
  | usingExpr
  | checkExpr
  | allow
  | restrictive
  | description
  deriving DecidableEq, Repr

namespace PolicyDraft

/-- What the fields of a policy hold. -/
abbrev Content : Field → Type
  | .table => String
  | .template => Option Template
  | .name => Option String
  | .command => Option Command
  | .role => Option String
  | .usingExpr => Option PredicateDraft
  | .checkExpr => Option PredicateDraft
  | .allow => Option PredicateDraft
  | .restrictive => Bool
  | .description => Option String

/-- Policies as records; only the table is needed. -/
def record : Json.RecordType Field Content where
  title := "struct PolicySpec"
  fields := [.table, .template, .name, .command, .role, .usingExpr, .checkExpr, .allow,
    .restrictive, .description]
  label
    | .table => "table"
    | .template => "template"
    | .name => "name"
    | .command => "operation"
    | .role => "role"
    | .usingExpr => "using"
    | .checkExpr => "with_check"
    | .allow => "allow"
    | .restrictive => "restrictive"
    | .description => "description"
  absent
    | .table => none
    | .template => some none
    | .name => some none
    | .command => some none
    | .role => some none
    | .usingExpr => some none
    | .checkExpr => some none
    | .allow => some none
    | .restrictive => some false
    | .description => some none

/-- The content of a field. -/
def content : (f : Field) → Json.Reading → Except Json.Fault (Content f)
  | .table, r => r.asText
  | .template, r => r.asOption Template.ofReading
  | .name, r => r.asOption Json.Reading.asText
  | .command, r => r.asOption Command.words.ofReading
  | .role, r => r.asOption Json.Reading.asText
  | .usingExpr, r => r.asOption PredicateDraft.ofReading
  | .checkExpr, r => r.asOption PredicateDraft.ofReading
  | .allow, r => r.asOption PredicateDraft.ofReading
  | .restrictive, r => r.asBool
  | .description, r => r.asOption Json.Reading.asText

/-- The policy that a text describes. -/
def ofReading (r : Json.Reading) : Except Json.Fault PolicyDraft := do
  let slots ← record.ofReading content r
  return {
    table := ← record.get slots .table
    template := ← record.get slots .template
    name := ← record.get slots .name
    command := ← record.get slots .command
    role := ← record.get slots .role
    usingExpr := ← record.get slots .usingExpr
    checkExpr := ← record.get slots .checkExpr
    allow := ← record.get slots .allow
    restrictive := ← record.get slots .restrictive
    description := ← record.get slots .description }

end PolicyDraft

/-! ### Groups -/

/-- The fields of a group. -/
inductive GroupDraft.Field where
  | name
  | description
  | policies
  deriving DecidableEq, Repr

namespace GroupDraft

/-- What the fields of a group hold. -/
abbrev Content : Field → Type
  | .name => String
  | .description => Option String
  | .policies => List PolicyDraft

/-- Groups as records; only the name is needed. -/
def record : Json.RecordType Field Content where
  title := "struct GroupSpec"
  fields := [.name, .description, .policies]
  label
    | .name => "name"
    | .description => "description"
    | .policies => "policies"
  absent
    | .name => none
    | .description => some none
    | .policies => some []

/-- The content of a field. -/
def content : (f : Field) → Json.Reading → Except Json.Fault (Content f)
  | .name, r => r.asText
  | .description, r => r.asOption Json.Reading.asText
  | .policies, r => r.asList PolicyDraft.ofReading

/-- The group that a text describes. -/
def ofReading (r : Json.Reading) : Except Json.Fault GroupDraft := do
  let slots ← record.ofReading content r
  return {
    name := ← record.get slots .name
    description := ← record.get slots .description
    policies := ← record.get slots .policies }

end GroupDraft

/-! ### Manifests -/

namespace Manifest

/-- Manifests as records with one field. -/
def record : Json.RecordType Unit fun _ => List GroupDraft where
  title := "struct PolicyManifest"
  fields := [()]
  label _ := "groups"
  absent _ := none

/-- The manifest that a text describes, as far as it can be read. -/
def ofReading (r : Json.Reading) : Except Json.Fault Manifest := do
  let slots ← record.ofReading (fun _ r => r.asList GroupDraft.ofReading) r
  return { groups := ← record.get slots () }

/-- The manifest that a text describes. -/
def ofText (text : String) : Except Json.Fault Manifest :=
  (Json.Document.ofText text).decode ofReading

end Manifest

end RowPolicy
