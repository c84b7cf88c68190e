import RowPolicy.Proofs.Manifest.Acceptance
import RowPolicy.Proofs.Manifest.Duplicates
import RowPolicy.Proofs.Manifest.Extras
import RowPolicy.Proofs.Predicate.References

namespace RowPolicy

open Sql

/-!
# Row security of the tables with policies

Policies have no effect on a table whose row security is off.  The statements that switch it on
are made from the drafts of the policies, the policies from what becomes of the drafts; the
tables are the same, and the statements come first.

* `mem_firstOccurrences`, `nodup_firstOccurrences`, `firstOccurrences_flatMap` — first
  occurrences in a list;
* `Manifest.tables_eq`, `Manifest.tables_eq_union` — the tables of a manifest are those of its
  policies;
* `Sql.statements_behind` — a script behind other statements;
* `Manifest.alterations_eq` — which tables the text of a manifest alters;
* `Manifest.secures_tables` — where the text of a manifest switches row security on.
-/

/-! ### First occurrences -/

/-- A table is among those collected if it was there before or is met now. -/
theorem mem_foldl_addTable {seen tables : List String} {table : String} :
    table ∈ tables.foldl addTable seen ↔ table ∈ seen ∨ table ∈ tables := by
  induction tables generalizing seen with
  | nil => simp
  | cons first tables ih =>
    rw [List.foldl_cons, ih, addTable, List.mem_cons]
    by_cases hmem : first ∈ seen
    -- a table met before is not added again
    · rw [if_pos hmem]
      constructor
      · exact Or.imp_right .inr
      · rintro (h | rfl | h)
        · exact .inl h
        · exact .inl hmem
        · exact .inr h
    · rw [if_neg hmem, List.mem_append, List.mem_singleton, or_assoc]

/-- The first occurrences in a list are its elements, added one by one. -/
theorem firstOccurrences_eq (xs : List String) : firstOccurrences xs = xs.foldl addTable [] := rfl

/-- The first occurrences have the same entries as the list. -/
theorem mem_firstOccurrences {xs : List String} {x : String} :
    x ∈ firstOccurrences xs ↔ x ∈ xs := by
  rw [firstOccurrences_eq, mem_foldl_addTable]
  simp

/-- Each entry occurs once among the first occurrences. -/
theorem nodup_firstOccurrences (xs : List String) : (firstOccurrences xs).Nodup :=
  nodup_foldl_addTable List.nodup_nil xs

/-- To add what has been collected is to add it as it comes. -/
theorem foldl_addTable_foldl (seen first xs : List String) :
    (xs.foldl addTable first).foldl addTable seen =
      xs.foldl addTable (first.foldl addTable seen) := by
  induction xs generalizing first with
  | nil => rfl
  | cons x xs ih =>
    -- collecting in two steps or in one puts the table at the same place
    have hstep : (addTable first x).foldl addTable seen =
        addTable (first.foldl addTable seen) x := by
      by_cases hmem : x ∈ first
      · have hadded : x ∈ first.foldl addTable seen := mem_foldl_addTable.mpr (.inr hmem)
        rw [addTable, if_pos hmem, addTable, if_pos hadded]
      · rw [addTable, if_neg hmem, List.foldl_append]
        rfl
    rw [List.foldl_cons, ih, hstep, List.foldl_cons]

/-- First occurrences may be taken of each part first. -/
theorem firstOccurrences_flatMap {α : Type} (parts : List α) (f : α → List String) :
    firstOccurrences (parts.flatMap fun a => firstOccurrences (f a)) =
      firstOccurrences (parts.flatMap f) := by
  have hfold (seen : List String) :
      (parts.flatMap fun a => firstOccurrences (f a)).foldl addTable seen =
        (parts.flatMap f).foldl addTable seen := by
    induction parts generalizing seen with
    | nil => rfl
    | cons a parts ih =>
      rw [List.flatMap_cons, List.flatMap_cons, List.foldl_append, List.foldl_append,
        firstOccurrences_eq, foldl_addTable_foldl, List.foldl_nil, ih]
  exact hfold []

/-! ### Tables of policies -/

namespace Manifest

/-- The tables of a manifest are those of its policies, in the order in which they come. -/
theorem tables_eq {m : Manifest} {groups : List PolicyGroup} (h : m.realize = .ok groups) :
    m.tables = firstOccurrences ((groups.flatMap (·.policies)).map (·.table)) := by
  have hrealizes := policies_of_realizes (realize_eq_ok.mp h).2.1
  have hsame : (m.groups.flatMap (·.policies)).map (·.table) =
      (groups.flatMap (·.policies)).map (·.table) := by
    rw [← List.forall₂_eq_eq_eq, List.forall₂_map_left_iff, List.forall₂_map_right_iff]
    exact hrealizes.imp fun d p hp => (PolicyDraft.table_realize hp).symm
  rw [tables, ← List.map_flatMap, hsame]

/-- They are the tables of its groups, put together. -/
theorem tables_eq_union {m : Manifest} {groups : List PolicyGroup} (h : m.realize = .ok groups) :
    m.tables = firstOccurrences (groups.flatMap PolicyGroup.tables) := by
  have hunion := firstOccurrences_flatMap groups fun group => group.policies.map (·.table)
  rw [tables_eq h, List.map_flatMap, ← hunion]
  rfl

end Manifest

/-! ### Statements in front of a script -/

/-- Texts behind others are separated from them like these from each other. -/
theorem joined_append (sep : String) (texts : List String) {rest : List String} (h : rest ≠ []) :
    joined sep (texts ++ rest) = String.join (texts.map (· ++ sep)) ++ joined sep rest := by
  induction texts with
  | nil => simp
  | cons text texts ih =>
    obtain ⟨next, others, hnext⟩ :=
      List.exists_cons_of_ne_nil (List.append_ne_nil_of_right_ne_nil texts h)
    rw [List.cons_append, hnext, joined_cons_cons, ← hnext, ih, List.map_cons, String.join_cons]
    simp only [String.append_assoc]

/-- A text among others stands somewhere in what is joined of them. -/
theorem exists_of_mem_joined (sep : String) {text : String} {texts : List String}
    (h : text ∈ texts) : ∃ front back, joined sep texts = front ++ text ++ back := by
  obtain ⟨before, behind, rfl⟩ := List.append_of_mem h
  rw [joined_append sep before (List.cons_ne_nil text behind)]
  cases behind with
  | nil => exact ⟨String.join (before.map (· ++ sep)), "", by simp⟩
  | cons next behind =>
    refine ⟨String.join (before.map (· ++ sep)), sep ++ joined sep (next :: behind), ?_⟩
    rw [joined_cons_cons]
    simp only [String.append_assoc]

namespace Sql

/-- A text always has a first piece, if an empty one. -/
theorem split_ne_nil (place : Place) (s : List Char) : split place s ≠ [] := by
  induction s generalizing place with
  | nil => simp [split]
  | cons c s ih =>
    rw [split]
    split
    · simp
    · rw [ne_eq, List.modifyHead_eq_nil_iff]
      exact ih _

/-- Statements in front of a script, whatever it is, are its first statements. -/
theorem statements_behind {ss : List String} (h : ∀ s ∈ ss, IsStatement s) (script : String) :
    statements (String.join (ss.map (· ++ ";\n\n")) ++ script) = ss ++ statements script := by
  have hparts : parts (String.join (ss.map (· ++ ";\n\n")) ++ script).toList =
      ss ++ parts script.toList := by
    induction ss with
    | nil => simp
    | cons s ss ih =>
      rw [List.forall_mem_cons] at h
      have hs := parts_statement h.1
        ('\n' :: '\n' :: (String.join (ss.map (· ++ ";\n\n")) ++ script).toList)
      rw [parts_newline, parts_newline, ih h.2] at hs
      rw [List.map_cons, String.join_cons, List.cons_append, ← hs]
      simp
  have hne : parts script.toList ≠ [] := by
    rw [parts, ne_eq, List.map_eq_nil_iff]
    exact split_ne_nil _ _
  rw [statements, statements, hparts, List.getLast?_append_of_ne_nil _ hne]
  -- what is left out at the end is a part of the script
  split
  · rw [List.dropLast_append_of_ne_nil hne]
  · rfl

end Sql

/-! ### The text of a manifest -/

/-- The statement of a policy begins with the name of the policy and that of the table. -/
theorem Policy.createStatement_eq (policy : Policy) : ∃ clauses, policy.createStatement =
    "CREATE POLICY " ++ quoteIdentifier policy.name ++ " ON " ++ Reference.quoted policy.table ++
      clauses := by
  unfold createStatement
  simp only [String.append_assoc]
  exact ⟨_, rfl⟩

/-- Each policy of some groups stands somewhere in their text. -/
theorem exists_createStatement {groups : List PolicyGroup} {policy : Policy}
    (h : policy ∈ groups.flatMap (·.policies)) (extras : Extras) :
    ∃ front back, joined statementSeparator (groups.map (·.text extras)) =
      front ++ policy.createStatement ++ back := by
  obtain ⟨group, hgroup, hpolicy⟩ := List.mem_flatMap.mp h
  obtain ⟨front, back, hgroups⟩ := exists_of_mem_joined statementSeparator
    (List.mem_map_of_mem (f := fun g : PolicyGroup => g.text extras) hgroup)
  obtain ⟨before, behind, hpolicies⟩ := exists_of_mem_joined statementSeparator
    (List.mem_map_of_mem (f := fun p : Policy => p.text extras) hpolicy)
  -- comment line and indexes in front, the comment of the policy behind
  refine ⟨front ++ (group.description.map commentLine).getD "" ++ before ++ policy.front extras,
    policy.behind extras ++ behind ++ back, ?_⟩
  rw [hgroups, PolicyGroup.text, hpolicies, Policy.text, Policy.front, Policy.behind]
  simp only [String.append_assoc]

namespace Manifest

/-- The statements that enable row security stand in front of the text without them. -/
theorem sql_enabled_eq_ok {m : Manifest} {extras : Extras} {sql : String} :
    m.sql extras true = .ok sql ↔ ∃ rest, m.sql extras false = .ok rest ∧
      sql = String.join (m.enabling.map (· ++ statementSeparator)) ++ rest := by
  -- behind the statements for the tables stands at least one group
  have hjoined {groups : List PolicyGroup} (h : m.realize = .ok groups) :
      joined statementSeparator (m.enabling ++ groups.map (·.text extras)) =
        String.join (m.enabling.map (· ++ statementSeparator)) ++
          joined statementSeparator (groups.map (·.text extras)) := by
    refine joined_append statementSeparator m.enabling fun hnil => ?_
    obtain ⟨hgroups, hrealizes⟩ := realizes_of_ok h
    rw [List.map_eq_nil_iff.mp hnil] at hrealizes
    exact hgroups (List.forall₂_nil_right_iff.mp hrealizes)
  simp only [sql_eq_ok, if_true, Bool.false_eq_true, if_false, List.nil_append]
  constructor
  · rintro ⟨groups, hrealize, hclause, rfl⟩
    exact ⟨_, ⟨groups, hrealize, hclause, rfl⟩, hjoined hrealize⟩
  · rintro ⟨_, ⟨groups, hrealize, hclause, rfl⟩, rfl⟩
    exact ⟨groups, hrealize, hclause, (hjoined hrealize).symm⟩

/-- What enables row level security is a statement, whatever the tables are called. -/
theorem isStatement_enabling (m : Manifest) : ∀ s ∈ m.enabling, IsStatement s := by
  intro s hs
  obtain ⟨table, -, rfl⟩ := List.mem_map.mp hs
  exact Table.enableSecurity_isStatement table

end Manifest

/-! ### Altered tables -/

/-- What the statements of a script that alter tables say, each from the table on. -/
def Sql.alterations (script : String) : List String :=
  (statements script).filterMap fun s => (Policy.after? "ALTER TABLE " s.toList).map String.ofList

namespace Policy

/-- A statement of a policy creates an index or the policy, or comments on it. -/
theorem statements_cases {policy : Policy} {extras : Extras} {s : String}
    (h : s ∈ policy.statements extras) :
    (∃ column, s = Index.statement policy.table column) ∨ s = policy.createStatement ∨
      ∃ description, s = policy.commentStatement description := by
  rw [statements, List.mem_append, List.mem_cons] at h
  obtain hindex | hcreate | hcomment := h
  · cases hextra : extras.indexes with
    | false => simp [hextra] at hindex
    | true =>
      -- in front of the policy, the indexes
      rw [hextra, if_pos rfl] at hindex
      obtain ⟨column, -, rfl⟩ := List.mem_map.mp hindex
      exact .inl ⟨column, rfl⟩
  · exact .inr (.inl hcreate)
  · cases hextra : extras.comments with
    | false => simp [hextra] at hcomment
    | true =>
      -- behind it, at most one comment
      simp only [hextra, if_true, Option.mem_toList, Option.map_eq_some_iff] at hcomment
      obtain ⟨description, -, rfl⟩ := hcomment
      exact .inr (.inr ⟨description, rfl⟩)

/-- Neither a policy nor its extras alter a table. -/
theorem after_statements {policy : Policy} {extras : Extras} {s : String}
    (h : s ∈ policy.statements extras) : after? "ALTER TABLE " s.toList = none := by
  -- each of the three begins with other words
  obtain ⟨column, rfl⟩ | rfl | ⟨description, rfl⟩ := statements_cases h
  · unfold Index.statement
    simp only [String.append_assoc]
    exact after_eq_none (by simp) (by simp) _
  · obtain ⟨clauses, hclauses⟩ := policy.createStatement_eq
    rw [hclauses]
    simp only [String.append_assoc]
    exact after_eq_none (by simp) (by simp) _
  · unfold commentStatement
    simp only [String.append_assoc]
    exact after_eq_none (by simp) (by simp) _

end Policy

namespace Manifest

/-- The text of a manifest that takes over no SQL alters its tables, in order, and no others. -/
theorem alterations_eq {m : Manifest} (hraws : m.raws = []) {groups : List PolicyGroup}
    (hrealize : m.realize = .ok groups)
    (hclause : ∀ group ∈ groups, ∀ policy ∈ group.policies, policy.HasClause) (extras : Extras) :
    alterations (joined statementSeparator
        (m.enabling ++ groups.map (·.text extras)) ++ ";") =
      m.tables.map fun table => Reference.quoted table ++ " ENABLE ROW LEVEL SECURITY" := by
  have henabling (table : String) :
      (Policy.after? "ALTER TABLE " (Table.enableSecurity table).toList).map String.ofList =
        some (Reference.quoted table ++ " ENABLE ROW LEVEL SECURITY") := by
    rw [Table.enableSecurity, String.append_assoc, String.toList_append, Policy.after_words,
      Option.map_some, String.ofList_toList]
  -- the statements of the policies alter nothing
  have hpolicies : (groups.flatMap fun group =>
      group.policies.flatMap (·.statements extras)).filterMap
        (fun s => (Policy.after? "ALTER TABLE " s.toList).map String.ofList) = [] := by
    refine List.filterMap_eq_nil_iff.mpr fun s hs => ?_
    obtain ⟨group, -, hs⟩ := List.mem_flatMap.mp hs
    obtain ⟨policy, -, hs⟩ := List.mem_flatMap.mp hs
    rw [Policy.after_statements hs]
    rfl
  have hstatements := (runs_texts hraws hrealize hclause extras true).statements_eq
  rw [if_pos rfl] at hstatements
  rw [alterations, hstatements, List.filterMap_append, hpolicies, List.append_nil, enabling,
    List.filterMap_map, ← List.filterMap_eq_map]
  exact List.filterMap_congr fun table _ => henabling table

/-- A policy on one of the tables stands somewhere behind the statement that enables row security
    on this table. -/
theorem exists_enabling {m : Manifest} {groups : List PolicyGroup} {policy : Policy}
    (hpolicy : policy ∈ groups.flatMap (·.policies)) (htable : policy.table ∈ m.tables)
    (extras : Extras) : ∃ before between clauses behind,
      let written := Reference.quoted policy.table
      String.join (m.enabling.map (· ++ statementSeparator)) ++
          joined statementSeparator (groups.map (·.text extras)) =
        before ++ ("ALTER TABLE " ++ written ++ " ENABLE ROW LEVEL SECURITY") ++ between ++
          ("CREATE POLICY " ++ quoteIdentifier policy.name ++ " ON " ++ written ++ clauses) ++
          behind := by
  have hstatement : Table.enableSecurity policy.table ∈ m.enabling := List.mem_map_of_mem htable
  -- the statement for the table is cut out in front, that of the policy behind it
  obtain ⟨before, behind, hsplit⟩ := List.append_of_mem hstatement
  obtain ⟨front, back, hcreate⟩ := exists_createStatement hpolicy extras
  obtain ⟨clauses, hclauses⟩ := policy.createStatement_eq
  refine ⟨String.join (before.map (· ++ statementSeparator)),
    statementSeparator ++ String.join (behind.map (· ++ statementSeparator)) ++ front,
    clauses, back, ?_⟩
  rw [hcreate, hsplit, hclauses, List.map_append, List.map_cons, String.join_append,
    String.join_cons, Table.enableSecurity]
  simp only [String.append_assoc]

/-- **Row security comes first.** The tables of a manifest are those of its policies, and those
    of its groups put together: each once, in the order in which they come, and no others.
    With row security the text begins with one statement for each of them, in this order,
    whatever stands behind; behind stands the text without row security.  So a policy on a
    table comes behind the statement that enables row security on this very table.  Unless the
    manifest takes over SQL, these tables are the only ones that the text alters, and each
    policy that is read in it is on one of them. -/
theorem secures_tables (m : Manifest) :
    (∀ groups, m.realize = .ok groups →
      m.tables = firstOccurrences ((groups.flatMap (·.policies)).map (·.table)) ∧
      m.tables = firstOccurrences (groups.flatMap PolicyGroup.tables) ∧
      m.tables.Nodup ∧
      ∀ table, table ∈ m.tables ↔ ∃ policy ∈ groups.flatMap (·.policies), policy.table = table) ∧
    ∀ extras sql, m.sql extras true = .ok sql →
      ∃ groups rest, m.realize = .ok groups ∧ m.sql extras false = .ok rest ∧
        sql = String.join
          (m.tables.map fun table => Table.enableSecurity table ++ statementSeparator) ++ rest ∧
        statements (sql ++ ";") =
          m.tables.map Table.enableSecurity ++ statements (rest ++ ";") ∧
        (∀ policy ∈ groups.flatMap (·.policies), ∃ before between clauses behind,
          let written := Reference.quoted policy.table
          sql = before ++ ("ALTER TABLE " ++ written ++ " ENABLE ROW LEVEL SECURITY") ++ between ++
            ("CREATE POLICY " ++ quoteIdentifier policy.name ++ " ON " ++ written ++ clauses) ++
            behind) ∧
        (m.raws = [] →
          alterations (sql ++ ";") = (m.tables.map fun table =>
            Reference.quoted table ++ " ENABLE ROW LEVEL SECURITY") ∧
          ∀ created ∈ createdPolicies (sql ++ ";"),
            created.2 ++ " ENABLE ROW LEVEL SECURITY" ∈ alterations (sql ++ ";")) := by
  -- the tables collected are those of the policies
  have hmem {groups : List PolicyGroup} (hrealize : m.realize = .ok groups) (table : String) :
      table ∈ m.tables ↔ ∃ policy ∈ groups.flatMap (·.policies), policy.table = table := by
    rw [tables_eq hrealize, mem_firstOccurrences, List.mem_map]
  constructor
  · intro groups hrealize
    refine ⟨tables_eq hrealize, tables_eq_union hrealize, ?_, hmem hrealize⟩
    rw [tables_eq hrealize]
    exact nodup_firstOccurrences _
  intro extras sql h
  obtain ⟨rest, hrest, hsql⟩ := sql_enabled_eq_ok.mp h
  obtain ⟨groups, hrealize, hclause, htext⟩ := sql_eq_ok.mp h
  obtain ⟨others, hothers, -, hrestText⟩ := sql_eq_ok.mp hrest
  -- both texts are made of the same groups
  obtain rfl : groups = others := Except.ok.inj (hrealize.symm.trans hothers)
  rw [if_neg (by decide), List.nil_append] at hrestText
  rw [if_pos rfl] at htext
  refine ⟨groups, rest, hrealize, hrest, ?_, ?_, ?_, ?_⟩
  · rw [hsql, enabling, List.map_map]
    rfl
  · rw [hsql, String.append_assoc]
    exact statements_behind m.isStatement_enabling (rest ++ ";")
  · intro policy hpolicy
    rw [hsql, hrestText]
    exact exists_enabling hpolicy ((hmem hrealize _).mpr ⟨policy, hpolicy, rfl⟩) extras
  · intro hraws
    -- what is read from the text on both sides is known, so only the lists are compared
    have halter := alterations_eq hraws hrealize hclause extras
    have hcreate := createdPolicies_eq hraws hrealize hclause extras true
    rw [if_pos rfl, ← htext] at hcreate
    rw [← htext] at halter
    refine ⟨halter, fun created hcreated => ?_⟩
    rw [hcreate, List.mem_map] at hcreated
    obtain ⟨policy, hpolicy, rfl⟩ := hcreated
    rw [halter]
    exact List.mem_map_of_mem (f := fun t => Reference.quoted t ++ " ENABLE ROW LEVEL SECURITY")
      ((hmem hrealize policy.table).mpr ⟨policy, hpolicy, rfl⟩)

/-- Two groups that share a table: it is secured once, where it comes first. -/
theorem secures_tables_shared :
    let m : Manifest := ⟨[⟨"g", none, [readerDraft "p" "t", readerDraft "p" "u"]⟩,
      ⟨"h", none, [readerDraft "q" "v", readerDraft "q" "t"]⟩]⟩
    ∃ sql rest, m.sql {} true = .ok sql ∧ m.tables = ["t", "u", "v"] ∧
      statements (sql ++ ";") =
        ["ALTER TABLE \"t\" ENABLE ROW LEVEL SECURITY",
          "ALTER TABLE \"u\" ENABLE ROW LEVEL SECURITY",
          "ALTER TABLE \"v\" ENABLE ROW LEVEL SECURITY"] ++ statements (rest ++ ";") := by
  intro m
  -- the groups of the witness share a table, so there are fewer statements than policies
  obtain ⟨_, rest, -, -, -, hstatements, -⟩ := (secures_tables m).2 {} _ rfl
  have htables : m.tables = ["t", "u", "v"] := by decide
  rw [htables] at hstatements
  exact ⟨_, rest, rfl, htables, hstatements⟩

end Manifest

end RowPolicy
