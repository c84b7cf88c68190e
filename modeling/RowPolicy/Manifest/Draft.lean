import RowPolicy.Policy.Template

namespace RowPolicy

/-!
# Drafts — policies as a manifest describes them

A manifest is a list of groups of policies, written as data.  What it holds are
drafts: nothing in them has been checked, and only `realize` makes predicates
and policies of them.

* `OperandDraft`, `PredicateDraft`, `SubqueryDraft` — drafts of predicates;
* `PolicyDraft`, `GroupDraft`, `Manifest` — drafts of policies.
-/

/-- A draft of an operand. -/
inductive OperandDraft where
  | null
  | bool (b : Bool)
  /-- An integer of any size, by its value.  A small integer that is marked as one without a
      sign has no draft: only a program can build it, and no manifest describes it. -/
  | integer (n : Int)
  | float (x : Float)
  | text (s : String)
  | array (items : List OperandDraft)
  | instant (t : Instant)
  | context (c : Context)
  | raw (sql : String)

mutual

/-- A draft of a predicate. -/
inductive PredicateDraft where
  | compare (column : String) (op : Comparison) (operand : OperandDraft)
  | pattern (column : String) (op : Matching) (pattern : String)
  /-- Exactly one of the two sources has to be given. -/
  | member (column : String) (op : Membership) (values : Option (List OperandDraft))
      (subquery : Option SubqueryDraft)
  | null (column : String) (test : NullTest)
  | isOwner (column : String)
  | isPublic (column : String)
  | belongsToTenant (column setting : String)
  | isMemberOf (table foreignKey localKey : String)
  /-- Without a column to select, the tested column is selected. -/
  | userBelongsTo (column table : String) (select : Option String)
  | releasedBefore (column : String) (date : Option Instant)
  | hasRole (role table : String)
  | alwaysTrue
  | call (function : String) (args : List ArgumentDraft)
  /-- At least one member has to be given. -/
  | group (op : Connective) (members : List PredicateDraft)

/-- A draft of an argument. -/
inductive ArgumentDraft where
  | column (reference : String)
  | predicate (p : PredicateDraft)

/-- A draft of a join. -/
structure JoinDraft where
  kind : JoinKind
  table : String
  aliasName : Option String
  on : PredicateDraft

/-- A draft of a subquery. -/
structure SubqueryDraft where
  table : String
  aliasName : Option String
  columns : List String
  join : Option JoinDraft
  filter : Option PredicateDraft

end

/-- A draft of a policy: a template with some settings of its own, or a name, a
    command and predicates. -/
structure PolicyDraft where
  table : String
  template : Option Template
  name : Option String
  command : Option Command
  role : Option String
  usingExpr : Option PredicateDraft
  checkExpr : Option PredicateDraft
  /-- The predicate of the clauses that the command evaluates and that have
      none of their own. -/
  allow : Option PredicateDraft
  restrictive : Bool
  description : Option String

/-- A draft of a group of policies. -/
structure GroupDraft where
  name : String
  description : Option String
  policies : List PolicyDraft

/-- A description of groups of policies. -/
structure Manifest where
  groups : List GroupDraft

end RowPolicy
