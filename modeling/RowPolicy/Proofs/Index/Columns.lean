import RowPolicy.Index
import RowPolicy.Proofs.Predicate.Proper
import RowPolicy.Proofs.Predicate.References
import RowPolicy.Proofs.Reference.Segments

namespace RowPolicy

/-!
# The columns that deserve an index

The walk for indexes goes into groups and nowhere else.  What it keeps is decided by one
reference at a time, and a column that it keeps is written in the index as it is written in
the predicate:

* `Predicate.ungrouped`, `Predicate.Grouped` — the predicates within groups, from left to
  right, and the relation that they are reached by;
* `Index.lookup?`, `Index.bareName?` — the reference by which a predicate looks rows up, and the
  column that it stands for, if an index can be made on it;
* `Index.walk_eq`, `Index.columns_eq` — the walk adds these columns one by one;
* `Index.quoteIdentifier_columnName` — a reference of one segment, as a column and as a name;
* `Index.columns_firstSeen` — all of this for the predicates of a policy.
-/

namespace Predicate

/-! ### Within groups -/

mutual

/-- The predicates that a predicate consists of once all groups are taken apart. -/
def ungrouped : Predicate → List Predicate
  | group _ members => ungroupedOf members
  | p => [p]

/-- Those of some predicates. -/
def ungroupedOf : List Predicate → List Predicate
  | [] => []
  | p :: ps => p.ungrouped ++ ungroupedOf ps

end

/-- A predicate that is another one or is reached from it through groups alone. -/
def Grouped (part whole : Predicate) : Prop :=
  Relation.ReflTransGen (fun p q => ∃ op members, q = group op members ∧ p ∈ members) part whole

/-- What is reached from a member of a group is reached from the group. -/
theorem Grouped.within {part member : Predicate} {members : List Predicate}
    (h : part.Grouped member) (hmember : member ∈ members) (op : Connective) :
    part.Grouped (group op members) :=
  h.tail ⟨op, members, rfl, hmember⟩

/-- What some predicates consist of comes from one of them. -/
theorem mem_ungroupedOf {part : Predicate} {ps : List Predicate} :
    part ∈ ungroupedOf ps ↔ ∃ p ∈ ps, part ∈ p.ungrouped := by
  induction ps with
  | nil => simp [ungroupedOf]
  | cons p ps ih => simp [ungroupedOf, ih]

mutual

/-- What a predicate consists of is reached through groups only, and is no group. -/
theorem grouped_of_mem_ungrouped {part : Predicate} :
    (p : Predicate) → part ∈ p.ungrouped → part.Grouped p ∧ ∀ op, ¬ part.IsGroup op
  | group op members, h => by
    obtain ⟨member, hmember, hpart⟩ := grouped_of_mem_ungroupedOf members h
    exact ⟨hpart.1.within hmember op, hpart.2⟩
  | compare .., h | pattern .., h | member .., h | null .., h | helper .., h | call .., h
  | context _, h => by
    obtain rfl := List.mem_singleton.mp h
    refine ⟨Relation.ReflTransGen.refl, ?_⟩
    rintro op ⟨members, hmembers⟩
    cases hmembers

/-- The same for what some predicates consist of. -/
theorem grouped_of_mem_ungroupedOf {part : Predicate} :
    (ps : List Predicate) → part ∈ ungroupedOf ps →
      ∃ p ∈ ps, part.Grouped p ∧ ∀ op, ¬ part.IsGroup op
  | [], h => by
    cases h
  | p :: ps, h => by
    rw [ungroupedOf, List.mem_append] at h
    obtain h | h := h
    · exact ⟨p, List.mem_cons_self, grouped_of_mem_ungrouped p h⟩
    · obtain ⟨q, hq, hpart⟩ := grouped_of_mem_ungroupedOf ps h
      exact ⟨q, List.mem_cons_of_mem p hq, hpart⟩

end

/-- A predicate that is no group consists of itself. -/
theorem ungrouped_of_not_isGroup {p : Predicate} (h : ∀ op, ¬ p.IsGroup op) :
    p.ungrouped = [p] := by
  cases p with
  | group op members => exact absurd ⟨members, rfl⟩ (h op)
  | _ => rfl

/-- A predicate consists of what is reached from it through groups and is no group itself. -/
theorem mem_ungrouped {part p : Predicate} :
    part ∈ p.ungrouped ↔ part.Grouped p ∧ ∀ op, ¬ part.IsGroup op := by
  constructor
  · exact grouped_of_mem_ungrouped p
  · rintro ⟨hreached, hpart⟩
    -- from the part outwards, one group after the other
    induction hreached with
    | refl =>
      rw [ungrouped_of_not_isGroup hpart]
      exact List.mem_singleton_self part
    | tail _ hmember ih =>
      obtain ⟨op, members, rfl, hmember⟩ := hmember
      rw [ungrouped]
      exact mem_ungroupedOf.mpr ⟨_, hmember, ih⟩

end Predicate

namespace Index

open Predicate (ungrouped ungroupedOf)

/-! ### References and columns -/

/-- The reference by which a predicate looks rows up: the column that it compares for equality
    or looks up in a collection, or the key that it links to a membership table. -/
def lookup? : Predicate → Option String
  | .compare column .eq _ => some column
  | .member column .inside _ => some column
  | .helper name params => if name = Helper.isMemberOf then textParam? params "local_key" else none
  | _ => none

/-- The column that a reference stands for, if it is a column of the table itself. -/
def bareName? (reference : String) : Option String :=
  if Reference.qualifier? reference = none ∧ Reference.columnName reference ≠ "" ∧
      Reference.columnName reference ≠ "*" then some (Reference.columnName reference)
  else none

/-- The columns of some predicates that deserve an index, as often as they occur. -/
def candidates (ps : List Predicate) : List String := (ps.filterMap lookup?).filterMap bareName?

/-- Candidates are found one predicate at a time. -/
theorem candidates_append (ps qs : List Predicate) :
    candidates (ps ++ qs) = candidates ps ++ candidates qs := by
  rw [candidates, List.filterMap_append, List.filterMap_append]
  rfl

/-- A candidate is the bare name of a column that some predicate looks rows up by. -/
theorem mem_candidates {ps : List Predicate} {name : String} :
    name ∈ candidates ps ↔
      ∃ p ∈ ps, ∃ reference, lookup? p = some reference ∧ bareName? reference = some name := by
  simp only [candidates, List.mem_filterMap]
  constructor
  · rintro ⟨reference, ⟨p, hp, hlookup⟩, hname⟩
    exact ⟨p, hp, reference, hlookup, hname⟩
  · rintro ⟨p, hp, reference, hlookup, hname⟩
    exact ⟨reference, ⟨p, hp, hlookup⟩, hname⟩

/-! ### The walk -/

/-- A reference adds the column that it stands for, if there is one. -/
theorem addColumn_eq (columns : List String) (reference : String) :
    addColumn columns reference = (bareName? reference).toList.foldl addTable columns := by
  rw [addColumn, bareName?]
  by_cases hbare : Reference.qualifier? reference = none ∧ Reference.columnName reference ≠ "" ∧
      Reference.columnName reference ≠ "*"
  -- one condition is the other one with its negations pushed inwards
  · have hskip : ¬ ((Reference.qualifier? reference).isSome ∨
        Reference.columnName reference = "" ∨ Reference.columnName reference = "*") := by
      simp [hbare]
    rw [if_pos hbare, if_neg hskip]
    rfl
  · have hskip : (Reference.qualifier? reference).isSome ∨
        Reference.columnName reference = "" ∨ Reference.columnName reference = "*" := by
      by_contra hnone
      rw [not_or, not_or, Option.not_isSome_iff_eq_none] at hnone
      exact hbare hnone
    rw [if_neg hbare, if_pos hskip]
    rfl

/-- A predicate that is no group adds the column that it looks rows up by. -/
theorem foldl_candidates (columns : List String) (p : Predicate) :
    (candidates [p]).foldl addTable columns =
      match lookup? p with
      | some reference => addColumn columns reference
      | none => columns := by
  cases hlookup : lookup? p with
  | none => simp [candidates, hlookup]
  | some reference =>
    show _ = addColumn columns reference
    rw [addColumn_eq]
    cases hname : bareName? reference <;> simp [candidates, hlookup, hname]

mutual

/-- The walk adds the columns of what a predicate consists of, one by one. -/
theorem walk_eq (columns : List String) :
    (p : Predicate) → walk columns p = (candidates p.ungrouped).foldl addTable columns
  | .group _ members => walks_eq columns members
  | .compare column op operand => by
    have hself := foldl_candidates columns (.compare column op operand)
    cases op <;> exact hself.symm
  | .member column op source => by
    have hself := foldl_candidates columns (.member column op source)
    cases op <;> exact hself.symm
  -- of the helpers, only membership in a table looks rows up by a column of the row
  | .helper name params => by
    refine Eq.trans ?_ (foldl_candidates columns _).symm
    rw [walk, lookup?]
    by_cases hname : name = Helper.isMemberOf
    · cases textParam? params "local_key" <;> simp [hname]
    · rw [if_neg hname, if_neg hname]
  | .pattern .. | .null .. | .call .. | .context _ => rfl

/-- Predicates are walked one after the other. -/
theorem walks_eq (columns : List String) :
    (ps : List Predicate) →
      walks columns ps = (candidates (ungroupedOf ps)).foldl addTable columns
  | [] => rfl
  | p :: ps => by
    rw [walks, ungroupedOf, candidates_append, List.foldl_append, walk_eq, walks_eq]

end

/-- The columns to index, each at its first occurrence. -/
theorem columns_eq (usingExpr checkExpr : Option Predicate) :
    columns usingExpr checkExpr =
      (candidates ((usingExpr.toList ++ checkExpr.toList).flatMap ungrouped)).eraseDups := by
  have hflat (ps : List Predicate) : ungroupedOf ps = ps.flatMap ungrouped := by
    induction ps with
    | nil => rfl
    | cons p ps ih => rw [ungroupedOf, ih, List.flatMap_cons]
  rw [columns, walks_eq, foldl_addTable, hflat, List.nil_append]
  simp [List.removeAll]

/-! ### Written in an index -/

/-- A reference of one segment is written as a column like the name that it stands for. -/
theorem quoteIdentifier_columnName {reference name : String}
    (hone : (Reference.segments reference).length = 1) (hname : bareName? reference = some name) :
    quoteIdentifier name = Reference.quoted reference := by
  obtain ⟨segment, hsegments⟩ := List.length_eq_one_iff.mp hone
  have hcolumn : Reference.columnName reference = Reference.nameOf segment := by
    rw [Reference.columnName, hsegments]
    rfl
  rw [bareName?, hcolumn] at hname
  split at hname
  · rename_i hbare
    cases hname
    rw [Reference.quoted, Reference.write, hsegments, List.map_singleton, joined_singleton]
    -- a segment in quotes stands as it is, and that is how its name is quoted
    cases hquoted : Reference.quotedName? segment with
    | some content =>
      have hverbatim : Reference.Verbatim segment := .inr (by simp [hquoted])
      rw [Reference.writeSegment_verbatim hverbatim, Reference.nameOf, hquoted, Option.getD_some,
        Sql.eq_quoteIdentifier hquoted]
    | none =>
      have hself : Reference.nameOf segment = segment := by
        rw [Reference.nameOf, hquoted, Option.getD_none]
      have hverbatim : ¬ Reference.Verbatim segment := by
        rw [hself] at hbare
        simp [Reference.Verbatim, hquoted, hbare]
      rw [Reference.writeSegment_form hverbatim, hself]
  · cases hname

/-- **Columns to index.** The columns to index for a policy are those that its predicates look
    rows up by, also within groups but in no other predicate within them: first those of
    `USING`, then those of `WITH CHECK`, from left to right and each at its first occurrence
    only.  Where a reference has one segment, the index names the column by the very text that
    the predicate does. -/
theorem columns_firstSeen (usingExpr checkExpr : Option Predicate) :
    columns usingExpr checkExpr =
        (candidates ((usingExpr.toList ++ checkExpr.toList).flatMap ungrouped)).eraseDups ∧
      (∀ name, name ∈ columns usingExpr checkExpr ↔
        ∃ p, (usingExpr = some p ∨ checkExpr = some p) ∧ ∃ part : Predicate, part.Grouped p ∧
          ∃ reference, lookup? part = some reference ∧ bareName? reference = some name) ∧
      ∀ reference name, (Reference.segments reference).length = 1 →
        bareName? reference = some name →
          quoteIdentifier name = Reference.quoted reference ∧
            ∀ table, statement table name = "CREATE INDEX IF NOT EXISTS " ++ Index.name table name ++
              " ON " ++ Reference.quoted table ++ " (" ++ Reference.quoted reference ++ ")" := by
  refine ⟨columns_eq usingExpr checkExpr, fun name => ?_, fun reference name hone hname => ?_⟩
  · rw [columns_eq, List.mem_eraseDups, mem_candidates]
    simp only [List.mem_flatMap, List.mem_append, Option.mem_toList]
    constructor
    · rintro ⟨part, ⟨p, hp, hpart⟩, hreference⟩
      exact ⟨p, hp, part, (Predicate.mem_ungrouped.mp hpart).1, hreference⟩
    · rintro ⟨p, hp, part, hreached, reference, hlookup, hname⟩
      -- no group looks rows up itself
      have hgroup : ∀ op, ¬ part.IsGroup op := by
        rintro op ⟨members, rfl⟩
        cases hlookup
      exact ⟨part, ⟨p, hp, Predicate.mem_ungrouped.mpr ⟨hreached, hgroup⟩⟩, reference, hlookup,
        hname⟩
  · have htext := quoteIdentifier_columnName hone hname
    refine ⟨htext, fun table => ?_⟩
    rw [← htext]
    rfl

/-- One column in two spellings, columns of other tables, no column, and a key. -/
theorem columns_firstSeen_spellings :
    let found : Predicate := .group .or
      [.compare "b \"c" .eq (.predicate (.compare "x" .eq .null)),
        .group .and [.member "\"b \"\"c\"" .inside (.values []), .compare "t.d" .eq .null,
          .compare "*" .eq .null, .compare "e" .gt .null, .compare ".f" .eq .null]]
    let written : Predicate := .helper Helper.isMemberOf [("local_key", .text "g")]
    columns (some found) (some written) = ["b \"c", "f", "g"] ∧
      quoteIdentifier "b \"c" = Reference.quoted "\"b \"\"c\"" := by
  intro found written
  obtain ⟨hcolumns, -, htext⟩ := columns_firstSeen (some found) (some written)
  exact ⟨by rw [hcolumns]; decide +kernel, (htext _ _ (by decide +kernel) (by decide +kernel)).1⟩

end Index

end RowPolicy
