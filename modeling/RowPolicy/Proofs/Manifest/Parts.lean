import Mathlib.Logic.Relation
import RowPolicy.Manifest.Draft
import RowPolicy.Proofs.Predicate.References

namespace RowPolicy

/-!
# The parts of a draft

What a draft of a predicate says about scope can be read off before it is realized: which
drafts stand in it, which tables it refers to, and which names its subqueries bring in.

* `PredicateDraft.children`, `PredicateDraft.PartOf` — the drafts that stand directly in a
  draft, and those at any depth;
* `PredicateDraft.children_induction` — induction from the parts to the whole;
* `PredicateDraft.references`, `PredicateDraft.tables` — the references that its predicate
  will have, and the tables they point into;
* `SubqueryDraft.allowedOn`, `SubqueryDraft.available` — the names in scope.
-/

/-! ### Parts -/

/-- The `ON` and `WHERE` drafts of a subquery. -/
def SubqueryDraft.conditions (q : SubqueryDraft) : List PredicateDraft :=
  (q.join.map JoinDraft.on).toList ++ q.filter.toList

/-- The draft that an argument is, if it is one. -/
def ArgumentDraft.children : ArgumentDraft → List PredicateDraft
  | .column _ => []
  | .predicate p => [p]

namespace PredicateDraft

/-- The drafts that stand directly in a draft. -/
def children : PredicateDraft → List PredicateDraft
  | member _ _ _ subquery => subquery.toList.flatMap SubqueryDraft.conditions
  | call _ args => args.flatMap ArgumentDraft.children
  | group _ members => members
  | _ => []

/-- A draft that is another one or stands in it, at any depth. -/
def PartOf (part whole : PredicateDraft) : Prop :=
  Relation.ReflTransGen (fun c d => c ∈ d.children) part whole

/-- A condition of a subquery is a smaller draft than the subquery. -/
theorem sizeOf_lt_of_mem_conditions {q : SubqueryDraft} {c : PredicateDraft}
    (h : c ∈ q.conditions) : sizeOf c < sizeOf q := by
  obtain ⟨table, aliasName, columns, join, filter⟩ := q
  rw [SubqueryDraft.conditions, List.mem_append, Option.mem_toList, Option.mem_toList,
    Option.map_eq_some_iff] at h
  obtain ⟨⟨kind, joined, joinedAs, on⟩, rfl, rfl⟩ | rfl := h
  · simp only [SubqueryDraft.mk.sizeOf_spec, Option.some.sizeOf_spec, JoinDraft.mk.sizeOf_spec]
    omega
  · simp only [SubqueryDraft.mk.sizeOf_spec, Option.some.sizeOf_spec]
    omega

/-- A part of a draft is smaller than the draft. -/
theorem sizeOf_lt_of_mem_children {c d : PredicateDraft} (h : c ∈ d.children) :
    sizeOf c < sizeOf d := by
  -- only memberships, calls and groups have parts
  cases d with
  | member column op values subquery =>
    rw [children, List.mem_flatMap] at h
    obtain ⟨q, hq, hc⟩ := h
    rw [Option.mem_toList] at hq
    have hsize := sizeOf_lt_of_mem_conditions hc
    simp only [hq, member.sizeOf_spec, Option.some.sizeOf_spec]
    omega
  | call function args =>
    rw [children, List.mem_flatMap] at h
    obtain ⟨a, ha, hc⟩ := h
    have hsize := List.sizeOf_lt_of_mem ha
    cases a with
    | column reference => cases hc
    | predicate p =>
      cases List.mem_singleton.mp hc
      simp only [ArgumentDraft.predicate.sizeOf_spec] at hsize
      simp only [call.sizeOf_spec]
      omega
  | group op members =>
    have hsize := List.sizeOf_lt_of_mem (show c ∈ members from h)
    simp only [group.sizeOf_spec]
    omega
  | _ => cases h

/-- What holds of a draft as soon as it holds of the drafts directly in it holds of all
    drafts. -/
theorem children_induction {motive : PredicateDraft → Prop}
    (step : ∀ d, (∀ c ∈ d.children, motive c) → motive d) (d : PredicateDraft) : motive d :=
  step d fun c _ => children_induction step c
termination_by sizeOf d
decreasing_by exact sizeOf_lt_of_mem_children ‹_›

end PredicateDraft

/-! ### References -/

mutual

/-- The references that the predicate of a draft will have.  Those of a subquery have a scope
    of their own, and what a ready-made predicate is given as text may be a reference. -/
def PredicateDraft.references : PredicateDraft → List String
  | .compare column .. | .pattern column .. | .member column .. | .null column _
  | .isOwner column | .isPublic column | .belongsToTenant column _ | .userBelongsTo column ..
  | .releasedBefore column _ => [column]
  | .isMemberOf table foreignKey localKey => [table, foreignKey, localKey]
  | .hasRole role table => [role, table]
  | .alwaysTrue => []
  | .call _ args => ArgumentDraft.referencesOf args
  | .group _ members => PredicateDraft.referencesOf members

/-- Those of some drafts. -/
def PredicateDraft.referencesOf : List PredicateDraft → List String
  | [] => []
  | p :: ps => p.references ++ PredicateDraft.referencesOf ps

/-- Those of an argument. -/
def ArgumentDraft.references : ArgumentDraft → List String
  | .column reference => [reference]
  | .predicate p => p.references

/-- Those of some arguments. -/
def ArgumentDraft.referencesOf : List ArgumentDraft → List String
  | [] => []
  | a :: as => a.references ++ ArgumentDraft.referencesOf as

end

namespace PredicateDraft

/-- The tables that a draft refers to, each at its first occurrence. -/
def tables (d : PredicateDraft) : List String := (qualifiers d.references).eraseDups

/-- The tables that a draft refers to and that are not available. -/
def missing (d : PredicateDraft) (available : List String) : List String :=
  d.tables.filter fun table => table ∉ available

/-- No table is missing exactly if all those referred to are available. -/
theorem missing_eq_nil {d : PredicateDraft} {available : List String} :
    d.missing available = [] ↔ d.tables ⊆ available := by
  simp [missing, List.filter_eq_nil_iff, List.subset_def]

/-- A predicate that refers to what its draft refers to has the draft's tables. -/
theorem tables_eq_of_references {d : PredicateDraft} {p : Predicate}
    (h : p.references = d.references) : p.tables = d.tables := by
  rw [Predicate.tables_eq, h, tables]

/-- A predicate that refers to what its draft refers to misses the same tables. -/
theorem missing_eq_of_references {d : PredicateDraft} {p : Predicate}
    (h : p.references = d.references) (available : List String) :
    p.missing available = d.missing available := by
  rw [Predicate.missing, tables_eq_of_references h, missing]

end PredicateDraft

/-! ### Scope -/

/-- The name a joined table will be known by. -/
def JoinDraft.scopeName (j : JoinDraft) : String := j.aliasName.getD j.table

namespace SubqueryDraft

/-- The name the main table of a subquery will be known by. -/
def scopeName (q : SubqueryDraft) : String := q.aliasName.getD q.table

/-- The names that the `ON` draft of a join may refer to. -/
def allowedOn (q : SubqueryDraft) (j : JoinDraft) : List String := [q.scopeName, j.scopeName]

/-- The names that the `WHERE` draft may refer to. -/
def available (q : SubqueryDraft) : List String :=
  match q.join with
  | none => [q.scopeName]
  | some j => addTable [q.scopeName] j.scopeName

/-- The tables that a subquery refers to are in scope. -/
structure InScope (q : SubqueryDraft) : Prop where
  on_subset : ∀ j, q.join = some j → j.on.tables ⊆ q.allowedOn j
  filter_subset : ∀ p, q.filter = some p → p.tables ⊆ q.available

end SubqueryDraft

end RowPolicy
