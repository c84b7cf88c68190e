import RowPolicy.Proofs.Index.Columns
import RowPolicy.Proofs.Policy.Names
import RowPolicy.Proofs.Predicate.Quotes

namespace RowPolicy

open Sql

/-!
# Whether a column with an index is written in the policy

The walk for indexes and the text of a policy look at the same predicates, but the text does not
write all that the walk counts.  A membership in an empty list never holds and is written as just
that, and a helper that lacks a parameter becomes a call with the others.  Apart from that each
column that gets an index stands in the clauses, in quotes:

* `Predicate.quotedNames_sql` — a predicate has the names of what it consists of;
* `Index.isDropped`, `Index.sql_of_lookup` — the look-ups that are not written as such, and what
  the others begin with;
* `Policy.ungrouped`, `Policy.quotedNames_clauses` — the names in the clauses of a policy;
* `Index.columns_written_iff` — when all columns with an index are written.
-/

/-! ### The names in a predicate -/

namespace Predicate

/-- A group has the names of its members. -/
theorem quotedNames_group (op : Connective) {texts : List String}
    (h : ∀ text ∈ texts, Closes text) :
    quotedNames (op.groupSql texts) = texts.flatMap quotedNames := by
  have hsep : Separates (" " ++ op.sql ++ " ") := by cases op <;> decide
  -- a group without members is a constant, and any other one has parentheses around it
  cases texts with
  | nil => cases op <;> decide
  | cons text texts =>
    have hmembers := closes_joined hsep.closes h
    have hopen : Separates "(" := by decide
    have hclose : Separates ")" := by decide
    have hall : quotedNames ("(" ++ joined (" " ++ op.sql ++ " ") (text :: texts) ++ ")") =
        (text :: texts).flatMap quotedNames := by
      rw [quotedNames_inFront (hopen.closes.append hmembers) hclose, quotedNames_behind hopen,
        quotedNames_joined hsep h]
    cases op <;> exact hall

mutual

/-- A predicate has the names of what it consists of once all groups are taken apart. -/
theorem quotedNames_sql :
    (p : Predicate) → (∀ s ∈ p.raws, Closes s) →
      quotedNames p.sql = p.ungrouped.flatMap fun part => quotedNames part.sql
  | group op members, h =>
    (quotedNames_group op (closes_sqls members h)).trans (quotedNames_sqls members h)
  | compare .., _ | pattern .., _ | member .., _ | null .., _ | helper .., _ | call .., _
  | context _, _ => (List.append_nil _).symm

theorem quotedNames_sqls :
    (ps : List Predicate) → (∀ s ∈ rawsOf ps, Closes s) →
      (sqls ps).flatMap quotedNames = (ungroupedOf ps).flatMap fun part => quotedNames part.sql
  | [], _ => rfl
  | p :: ps, h => by
    rw [rawsOf, List.forall_mem_append] at h
    rw [sqls, ungroupedOf, List.flatMap_cons, List.flatMap_append, quotedNames_sql p h.1,
      quotedNames_sqls ps h.2]

end

end Predicate

namespace Index

/-! ### Look-ups -/

/-- The column that a predicate looks rows up by, if an index can be made on it. -/
def indexed? (p : Predicate) : Option String := (lookup? p).bind bareName?

/-- Whether a look-up is not written as such: a membership in an empty list, or a helper whose
    parameters are not all there. -/
def isDropped : Predicate → Bool
  | .member _ .inside (.values []) => true
  | .helper name params => (Helper.knownSql? name params).isNone
  | _ => false

/-- A membership in an empty list is written without its column. -/
theorem quotedNames_emptyMember (column : String) :
    quotedNames (Predicate.member column .inside (.values [])).sql = [] := by
  show quotedNames "FALSE" = []
  decide

/-- Any other look-up begins with its reference. -/
theorem sql_of_lookup {p : Predicate} {reference : String} (h : lookup? p = some reference)
    (hdropped : isDropped p = false) :
    ∃ rest, p.sql = Reference.quoted reference ++ rest ∧ Parted rest := by
  -- what can stand behind the column
  have hspace : Parted " " := parted_of_head rfl
  have hin : Parted " IN (" := parted_of_head rfl
  have hquery : Parted " IN " := parted_of_head rfl
  have hselect : Parted " IN (SELECT " := parted_of_head rfl
  cases p with
  | compare column op operand =>
    cases op <;> cases h
    refine ⟨" " ++ Comparison.eq.sql ++ " " ++ operand.sql, ?_,
      ((hspace.append _).append _).append _⟩
    rw [Predicate.sql]
    simp only [String.append_assoc]
  | member column op source =>
    cases op <;> cases h
    cases source with
    | subquery q =>
      refine ⟨" IN " ++ q.sql, ?_, hquery.append _⟩
      exact String.append_assoc ..
    | values items =>
      cases items with
      | nil => cases hdropped
      | cons v vs =>
        refine ⟨" IN (" ++ joined ", " (v.sql :: Operand.sqls vs) ++ ")", ?_,
          (hin.append _).append _⟩
        rw [← String.append_assoc, ← String.append_assoc]
        rfl
  | helper name params =>
    obtain ⟨text, hknown⟩ := Option.isSome_iff_exists.mp (Option.isNone_eq_false_iff.mp hdropped)
    rw [lookup?] at h
    -- only membership in a table has a column of its own
    split at h
    · rename_i hname
      obtain ⟨hsql, -⟩ | ⟨rfl, -⟩ | ⟨table, role, rfl, -⟩ |
        ⟨table, foreignKey, localKey, -, hlocal, hsql, -⟩ := Helper.known_cases name params
      · rw [hsql] at hknown
        cases hknown
      · exact absurd hname (by decide)
      · exact absurd hname (by decide)
      · rw [hlocal] at h
        cases h
        refine ⟨" IN (SELECT " ++ Reference.escaped foreignKey ++ " FROM " ++
          Reference.escaped table ++ " WHERE " ++ Reference.quoted Helper.userColumn ++
            " = auth.uid())", ?_,
            (((((hselect.append _).append _).append _).append _).append _).append _⟩
        rw [Predicate.sql, Helper.sql, hsql, Option.getD_some, Helper.memberSql]
        simp only [String.append_assoc]
    · cases h
  | _ => cases h

/-- The column that a reference stands for is the name of its last segment. -/
theorem mem_quotedNames_of_bareName {reference name : String}
    (h : bareName? reference = some name) :
    name ∈ quotedNames (Reference.quoted reference) := by
  rw [bareName?] at h
  split at h
  · rename_i hbare
    cases h
    -- the last segment is the name, since it is neither empty nor a star
    obtain ⟨-, hempty, hstar⟩ := hbare
    rw [Reference.columnName] at hempty hstar ⊢
    cases hlast : (Reference.segments reference).getLast? with
    | none =>
      rw [hlast] at hempty
      exact absurd rfl hempty
    | some segment =>
      rw [hlast, Option.map_some, Option.getD_some] at hstar
      rw [Option.map_some, Option.getD_some]
      refine mem_quotedNames_quoted (List.mem_of_getLast? hlast) ?_
      rintro rfl
      exact hstar rfl
  · cases h

/-- A column that a predicate looks rows up by is written in quotes, unless the predicate is
    dropped. -/
theorem mem_quotedNames_of_indexed {p : Predicate} {name : String} (h : indexed? p = some name)
    (hdropped : isDropped p = false) : name ∈ quotedNames p.sql := by
  obtain ⟨reference, hlookup, hname⟩ := Option.bind_eq_some_iff.mp h
  obtain ⟨rest, hsql, c, tail, hrest, hc⟩ := sql_of_lookup hlookup hdropped
  have hhead : rest.toList.head? ≠ some '"' := by
    rw [hrest, List.head?_cons, Ne, Option.some.injEq]
    rintro rfl
    exact absurd hc (by decide)
  rw [hsql, quotedNames_append (closes_quoted reference) hhead]
  exact List.mem_append_left _ (mem_quotedNames_of_bareName hname)

end Index

/-! ### The names in a policy -/

namespace Policy

/-- The predicates that the clauses of a policy consist of once all groups are taken apart. -/
def ungrouped (policy : Policy) : List Predicate :=
  (policy.usingExpr.toList ++ policy.checkExpr.toList).flatMap Predicate.ungrouped

/-- A clause closes its quotes, and has the names of what its predicate consists of. -/
theorem quotedNames_clause (keyword : String) (hkeyword : Separates (" " ++ keyword ++ " ("))
    {p : Option Predicate} (h : ∀ s ∈ Predicate.filterRaws p, Closes s) :
    Closes (predicateClause keyword p) ∧
      quotedNames (predicateClause keyword p) =
        (p.toList.flatMap Predicate.ungrouped).flatMap fun part => quotedNames part.sql := by
  cases p with
  | none => exact ⟨rfl, rfl⟩
  | some q =>
    have hclose : Separates ")" := by decide
    have hopened := hkeyword.closes.append (q.closes_sql h)
    refine ⟨hopened.append hclose.closes, ?_⟩
    rw [predicateClause, quotedNames_inFront hopened hclose, quotedNames_behind hkeyword,
      q.quotedNames_sql h, Option.toList_some, List.flatMap_singleton]

/-- The names in the clauses of a policy are those of their parts. -/
theorem quotedNames_clauses {policy : Policy} (h : ∀ s ∈ policy.raws, Closes s) :
    quotedNames policy.clauses = policy.ungrouped.flatMap fun part => quotedNames part.sql := by
  rw [raws, List.forall_mem_append] at h
  obtain ⟨hcloses, husing⟩ := quotedNames_clause "USING" (by decide) h.1
  obtain ⟨-, hcheck⟩ := quotedNames_clause "WITH CHECK" (by decide) h.2
  have hhead : (predicateClause "WITH CHECK" policy.checkExpr).toList.head? ≠ some '"' := by
    cases policy.checkExpr with
    | none => decide
    | some p => simp [predicateClause]
  rw [clauses, quotedNames_append hcloses hhead, husing, hcheck, ungrouped, List.flatMap_append,
    List.flatMap_append]

/-- The indexed columns of a policy are those of what its predicates consist of. -/
theorem mem_indexColumns {policy : Policy} {name : String} :
    name ∈ policy.indexColumns ↔ ∃ part ∈ policy.ungrouped, Index.indexed? part = some name := by
  rw [indexColumns, Index.columns_eq, List.mem_eraseDups, Index.mem_candidates]
  simp only [Index.indexed?, Option.bind_eq_some_iff]
  rfl

end Policy

namespace Index

/-- **Columns with an index, as they are written.** Where the SQL that a policy takes over closes
    its quotes, a name stands in the clauses of the policy if it stands in one of their parts.
    Each look-up for which there is an index is written with its column, in quotes, unless it is
    dropped; a membership in an empty list is written with no name at all.  So all columns with an
    index are written if and only if those of dropped look-ups stand in some part all the same. -/
theorem columns_written_iff (policy : Policy) (h : ∀ s ∈ policy.raws, Closes s) :
    (∀ s name, name ∈ quotedNames s ↔
      ∃ front back, s.toList = front ++ ((quoteIdentifier name).toList ++ back) ∧
        Place.outside.after front = .outside ∧ front.getLast? ≠ some '"' ∧
        back.head? ≠ some '"') ∧
      (∀ name, name ∈ quotedNames policy.clauses ↔
        ∃ part ∈ policy.ungrouped, name ∈ quotedNames part.sql) ∧
      (∀ part ∈ policy.ungrouped, ∀ name, indexed? part = some name → isDropped part = false →
        name ∈ quotedNames part.sql) ∧
      (∀ column, quotedNames (Predicate.member column .inside (.values [])).sql = []) ∧
      ((∀ name ∈ policy.indexColumns, name ∈ quotedNames policy.clauses) ↔
        ∀ dropped ∈ policy.ungrouped, isDropped dropped = true → ∀ name,
          indexed? dropped = some name → ∃ part ∈ policy.ungrouped, name ∈ quotedNames part.sql) := by
  -- a name is in the clauses if it is in one of the parts that they consist of
  have hclauses (name : String) : name ∈ quotedNames policy.clauses ↔
      ∃ part ∈ policy.ungrouped, name ∈ quotedNames part.sql := by
    rw [Policy.quotedNames_clauses h, List.mem_flatMap]
  refine ⟨fun s name => mem_quotedNames, hclauses,
    fun part _ name => mem_quotedNames_of_indexed, quotedNames_emptyMember, ?_, ?_⟩
  -- a dropped part is not written, so its column has to be written elsewhere
  · intro hall dropped hpart _ name hname
    exact (hclauses name).mp (hall name (Policy.mem_indexColumns.mpr ⟨dropped, hpart, hname⟩))
  -- and a part that is not dropped writes its column itself
  · intro hall name hindex
    obtain ⟨part, hpart, hname⟩ := Policy.mem_indexColumns.mp hindex
    rw [hclauses]
    cases hdropped : isDropped part with
    | true => exact hall part hpart hdropped name hname
    | false => exact ⟨part, hpart, mem_quotedNames_of_indexed hname hdropped⟩

/-- A column that is looked up in an empty list, and compared with SQL that has a mark in it. -/
theorem columns_written_iff_twice :
    let compared : Predicate := .compare "a" .eq (.raw "f('\"')")
    let policy : Policy :=
      { Policy.start "p" "t" .select with
        usingExpr := some (.group .or [.member "a" .inside (.values []), compared]) }
    (∀ s ∈ policy.raws, Closes s) ∧ policy.indexColumns = ["a"] ∧
      (∀ name ∈ policy.indexColumns, name ∈ quotedNames policy.clauses) ∧
      ∃ front back, policy.clauses.toList = front ++ ((quoteIdentifier "a").toList ++ back) ∧
        Place.outside.after front = .outside := by
  intro compared policy
  have hraws : ∀ s ∈ policy.raws, Closes s := by decide
  obtain ⟨hnames, -, hindexed, -, hall⟩ := columns_written_iff policy hraws
  have hungrouped : policy.ungrouped = [.member "a" .inside (.values []), compared] := rfl
  have hcompared : compared ∈ policy.ungrouped := by
    rw [hungrouped]
    simp
  have hboth : ∀ part ∈ policy.ungrouped, indexed? part = some "a" := by
    rw [hungrouped]
    decide +kernel
  -- the comparison is a part of its own, and is not dropped
  have hwritten := hall.mpr fun dropped hpart _ name hname => by
    rw [hboth dropped hpart] at hname
    cases hname
    exact ⟨compared, hcompared, hindexed compared hcompared "a" (hboth compared hcompared) rfl⟩
  have hcolumns : policy.indexColumns = ["a"] := by decide +kernel
  have ha : "a" ∈ quotedNames policy.clauses :=
    hwritten "a" (hcolumns ▸ List.mem_singleton_self "a")
  obtain ⟨front, back, hsplit, houtside, -⟩ := (hnames policy.clauses "a").mp ha
  exact ⟨hraws, hcolumns, hwritten, front, back, hsplit, houtside⟩

/-- A column that is only looked up in an empty list gets an index, and is not written. -/
theorem unwritten_column :
    let policy : Policy :=
      { Policy.start "p" "t" .select with usingExpr := some (.member "a" .inside (.values [])) }
    (∃ text, policy.sql ⟨true, false⟩ = .ok text) ∧ policy.raws = [] ∧
      policy.clauses = " USING (FALSE)" ∧ policy.indexColumns = ["a"] ∧
      "a" ∉ quotedNames policy.clauses ∧
      ¬ ∀ policy : Policy, ∀ name ∈ policy.indexColumns, name ∈ quotedNames policy.clauses := by
  intro policy
  have hcolumns : policy.indexColumns = ["a"] := by decide +kernel
  -- the predicate is dropped from the text, but not from the walk
  have hwritten : "a" ∉ quotedNames policy.clauses := by decide +kernel
  refine ⟨⟨_, rfl⟩, rfl, by decide +kernel, hcolumns, hwritten, fun h => ?_⟩
  exact hwritten (h policy "a" (hcolumns ▸ List.mem_singleton_self "a"))

end Index

end RowPolicy
