import Mathlib.Data.List.Nodup
import RowPolicy.Predicate.Combine
import RowPolicy.Predicate.Qualifiers

namespace RowPolicy

/-!
# The references of a predicate

The walk that looks for tables keeps a list of those it has met.  What it does depends on
the references of the predicate alone, in the order in which it comes to them:

* `Predicate.references` — every reference that the walk comes to, as often as it does;
* `Predicate.walk_eq` — the walk meets the qualifiers of these references one by one;
* `Predicate.tables_eq`, `Predicate.tables_nodup` — so the tables of a predicate are these
  qualifiers, each at its first occurrence;
* `Predicate.references_combine`, `Predicate.references_fold` — combining predicates keeps
  their references in order, whether or not a group is taken apart;
* `Predicate.tables_combine`, `Predicate.missing_combine` — the tables of what is combined, and
  those of them that are not at hand;
* `Predicate.tables_firstSeen` — all of this for one predicate and what it is combined with.
-/

/-! ### References -/

mutual

/-- The references that the walk comes to in an operand. -/
def Operand.references : Operand → List String
  | .predicate p => p.references
  | .array items => Operand.referencesOf items
  | _ => []

/-- Those in some operands. -/
def Operand.referencesOf : List Operand → List String
  | [] => []
  | v :: vs => v.references ++ Operand.referencesOf vs

/-- Those in some parameters. -/
def Operand.paramReferencesOf : List (String × Operand) → List String
  | [] => []
  | p :: ps => Operand.paramReferences p ++ Operand.paramReferencesOf ps

/-- Those in a parameter; a text may be a reference. -/
def Operand.paramReferences : String × Operand → List String
  | (_, .text s) => [s]
  | (_, v) => v.references

/-- Those in a list of values; a subquery has a scope of its own. -/
def Source.references : Source → List String
  | .values items => Operand.referencesOf items
  | .subquery _ => []

/-- Those in an argument. -/
def Argument.references : Argument → List String
  | .column reference => [reference]
  | .predicate p => p.references

/-- Those in some arguments. -/
def Argument.referencesOf : List Argument → List String
  | [] => []
  | a :: as => a.references ++ Argument.referencesOf as

/-- The references that the walk comes to in a predicate, from left to right. -/
def Predicate.references : Predicate → List String
  | .compare column _ operand => column :: operand.references
  | .pattern column .. => [column]
  | .member column _ source => column :: source.references
  | .null column _ => [column]
  | .group _ members => Predicate.referencesOf members
  | .helper _ params => Operand.paramReferencesOf params
  | .call _ args => Argument.referencesOf args
  | .context _ => []

/-- Those in some predicates. -/
def Predicate.referencesOf : List Predicate → List String
  | [] => []
  | p :: ps => p.references ++ Predicate.referencesOf ps

end

/-! ### The walk -/

mutual

/-- Walking an operand adds the qualifiers of its references, in order. -/
theorem Operand.walk_eq (seen : List String) :
    (v : Operand) → v.walk seen = v.references.foldl addQualifier seen
  | .predicate p => p.walk_eq seen
  | .array items => Operand.walks_eq seen items
  | .null | .bool _ | .int _ | .float _ | .text _ | .instant _ | .raw _ => rfl

theorem Operand.walks_eq (seen : List String) :
    (vs : List Operand) → Operand.walks seen vs = (Operand.referencesOf vs).foldl addQualifier seen
  | [] => rfl
  | v :: vs => by
    rw [Operand.walks, Operand.referencesOf, List.foldl_append, v.walk_eq, Operand.walks_eq]

theorem Operand.walkParams_eq (seen : List String) :
    (ps : List (String × Operand)) →
      Operand.walkParams seen ps = (Operand.paramReferencesOf ps).foldl addQualifier seen
  | [] => rfl
  | p :: ps => by
    rw [Operand.walkParams, Operand.paramReferencesOf, List.foldl_append, Operand.walkParam_eq,
      Operand.walkParams_eq]

theorem Operand.walkParam_eq (seen : List String) :
    (p : String × Operand) →
      Operand.walkParam seen p = (Operand.paramReferences p).foldl addQualifier seen
  | (_, .text _) => rfl
  | (_, .predicate p) => p.walk_eq seen
  | (_, .array items) => Operand.walks_eq seen items
  | (_, .null) | (_, .bool _) | (_, .int _) | (_, .float _) | (_, .instant _) | (_, .raw _) => rfl

/-- Walking a source adds the qualifiers of a list, and none of a subquery. -/
theorem Source.walk_eq (seen : List String) :
    (source : Source) → source.walk seen = source.references.foldl addQualifier seen
  | .values items => Operand.walks_eq seen items
  | .subquery _ => rfl

/-- Walking an argument adds the qualifiers of its references. -/
theorem Argument.walk_eq (seen : List String) :
    (a : Argument) → a.walk seen = a.references.foldl addQualifier seen
  | .column _ => rfl
  | .predicate p => p.walk_eq seen

theorem Argument.walks_eq (seen : List String) :
    (as : List Argument) →
      Argument.walks seen as = (Argument.referencesOf as).foldl addQualifier seen
  | [] => rfl
  | a :: as => by
    rw [Argument.walks, Argument.referencesOf, List.foldl_append, a.walk_eq, Argument.walks_eq]

/-- The walk adds the qualifiers of the references to what it has met. -/
theorem Predicate.walk_eq (seen : List String) :
    (p : Predicate) → p.walk seen = p.references.foldl addQualifier seen
  | .compare column _ operand => operand.walk_eq (addQualifier seen column)
  | .member column _ source => source.walk_eq (addQualifier seen column)
  | .group _ members => Predicate.walks_eq seen members
  | .helper _ params => Operand.walkParams_eq seen params
  | .call _ args => Argument.walks_eq seen args
  | .pattern .. | .null .. | .context _ => rfl

theorem Predicate.walks_eq (seen : List String) :
    (ps : List Predicate) →
      Predicate.walks seen ps = (Predicate.referencesOf ps).foldl addQualifier seen
  | [] => rfl
  | p :: ps => by
    rw [Predicate.walks, Predicate.referencesOf, List.foldl_append, p.walk_eq, Predicate.walks_eq]

end

/-! ### First occurrences -/

/-- The qualifiers of some references, one for each reference that has one. -/
def qualifiers (references : List String) : List String :=
  references.filterMap Reference.qualifier?

/-- Adding qualifiers of references is adding tables, if those without a qualifier are left out. -/
theorem foldl_addQualifier (seen references : List String) :
    references.foldl addQualifier seen = (qualifiers references).foldl addTable seen := by
  induction references generalizing seen with
  | nil => rfl
  | cons reference references ih =>
    rw [List.foldl_cons, ih, addQualifier, qualifiers, qualifiers, List.filterMap_cons]
    cases Reference.qualifier? reference with
    | none => rfl
    | some table => rfl

/-- A table is added only if it is new. -/
theorem nodup_addTable {seen : List String} (h : seen.Nodup) (table : String) :
    (addTable seen table).Nodup := by
  unfold addTable
  by_cases hmem : table ∈ seen
  · rwa [if_pos hmem]
  · rw [if_neg hmem]
    exact List.nodup_append.mpr ⟨h, List.nodup_singleton table, by
      intro a ha b hb hab
      rw [List.mem_singleton] at hb
      exact hmem (hb ▸ hab ▸ ha)⟩

/-- Tables that are added one by one are all different. -/
theorem nodup_foldl_addTable {seen : List String} (h : seen.Nodup) (tables : List String) :
    (tables.foldl addTable seen).Nodup := by
  induction tables generalizing seen with
  | nil => exact h
  | cons table tables ih => exact ih (nodup_addTable h table)

/-- Tables that are added one by one come behind those seen before, each at its first
    occurrence. -/
theorem foldl_addTable (seen tables : List String) :
    tables.foldl addTable seen = seen ++ (tables.removeAll seen).eraseDups := by
  induction tables generalizing seen with
  | nil => simp [List.removeAll]
  | cons table tables ih =>
    rw [List.foldl_cons, ih, addTable]
    by_cases hmem : table ∈ seen
    · rw [if_pos hmem, List.removeAll, List.removeAll, List.filter_cons_of_neg (by simpa using hmem)]
    · have hkeep : (table :: tables).removeAll seen = table :: tables.removeAll seen := by
        rw [List.removeAll, List.removeAll, List.filter_cons_of_pos (by simpa using hmem)]
      -- what is left of the others is the same, whether `table` is seen or a duplicate
      have hrest : tables.removeAll (seen ++ [table]) =
          (tables.removeAll seen).filter fun b => !b == table := by
        rw [List.removeAll, List.removeAll, List.filter_filter]
        refine List.filter_congr fun b _ => ?_
        by_cases hb : b = table <;> simp [hb]
      rw [if_neg hmem, hkeep, List.eraseDups_cons, hrest, List.append_assoc, List.singleton_append]

/-- First occurrences may be taken before some texts are left out or behind that. -/
theorem eraseDups_filter (keep : String → Bool) :
    (texts : List String) → (texts.filter keep).eraseDups = texts.eraseDups.filter keep
  | [] => rfl
  | text :: texts => by
    have hshorter : (texts.filter fun t => !t == text).length < texts.length + 1 :=
      Nat.lt_succ_of_le (List.length_filter_le _ _)
    have ih := eraseDups_filter keep (texts.filter fun t => !t == text)
    rw [List.eraseDups_cons]
    cases htext : keep text with
    | true =>
      rw [List.filter_cons_of_pos htext, List.filter_cons_of_pos htext, List.eraseDups_cons, ← ih,
        List.filter_filter, List.filter_filter]
      simp only [Bool.and_comm]
    | false =>
      -- what is kept is not `text`
      have hkept : texts.filter keep = (texts.filter fun t => !t == text).filter keep := by
        rw [List.filter_filter]
        refine List.filter_congr fun t _ => ?_
        by_cases ht : t = text <;> simp [ht, htext]
      have hdropped : ¬ keep text = true := by simp [htext]
      rw [List.filter_cons_of_neg hdropped, List.filter_cons_of_neg hdropped, ← ih, hkept]
termination_by texts => texts.length

namespace Predicate

/-- The tables of a predicate are the qualifiers of its references, each at its first
    occurrence. -/
theorem tables_eq (p : Predicate) : p.tables = (qualifiers p.references).eraseDups := by
  rw [tables, walk_eq, foldl_addQualifier, foldl_addTable, List.nil_append]
  simp [List.removeAll]

/-- The tables of a predicate are all different. -/
theorem tables_nodup (p : Predicate) : p.tables.Nodup := by
  rw [tables, walk_eq, foldl_addQualifier]
  exact nodup_foldl_addTable List.nodup_nil _

/-- A table of a predicate is the qualifier of one of its references. -/
theorem mem_tables {p : Predicate} {table : String} :
    table ∈ p.tables ↔ ∃ reference ∈ p.references, Reference.qualifier? reference = some table := by
  rw [tables_eq, List.mem_eraseDups, qualifiers, List.mem_filterMap]

/-- No table is missing exactly if all those referred to are available. -/
theorem missing_eq_nil {p : Predicate} {available : List String} :
    p.missing available = [] ↔ p.tables ⊆ available := by
  simp [missing, List.filter_eq_nil_iff, List.subset_def]

/-- Tables that become available leave the list of the missing ones, and none come in. -/
theorem missing_sublist (p : Predicate) {available more : List String} (h : available ⊆ more) :
    (p.missing more).Sublist (p.missing available) := by
  refine List.monotone_filter_right p.tables fun table hmissing => ?_
  rw [decide_eq_true_eq] at hmissing ⊢
  exact fun havailable => hmissing (h havailable)

/-! ### Combining -/

/-- The references of two rows of predicates are those of each row. -/
theorem referencesOf_append (ps qs : List Predicate) :
    referencesOf (ps ++ qs) = referencesOf ps ++ referencesOf qs := by
  induction ps with
  | nil => rfl
  | cons p ps ih => rw [List.cons_append, referencesOf, referencesOf, ih, List.append_assoc]

/-- The operands of a predicate, of which a group has many, refer to what it does. -/
theorem referencesOf_operands (op : Connective) (p : Predicate) :
    referencesOf (p.operands op) = p.references := by
  have hself (q : Predicate) : referencesOf [q] = q.references := by
    rw [referencesOf, referencesOf, List.append_nil]
  cases p with
  | group inner members =>
    rw [operands]
    by_cases hop : inner = op
    · rw [if_pos hop, references]
    · rw [if_neg hop, hself]
  | _ => exact hself _

/-- Combining puts the references of two predicates one after the other. -/
theorem references_combine (op : Connective) (p q : Predicate) :
    (combine op p q).references = p.references ++ q.references := by
  rw [combine, references, referencesOf_append, referencesOf_operands, referencesOf_operands]

/-- So does combining a list. -/
theorem references_fold {op : Connective} {ps : List Predicate} {p : Predicate}
    (h : fold? op ps = some p) : p.references = referencesOf ps := by
  cases ps with
  | nil => cases h
  | cons first rest =>
    cases h
    induction rest generalizing first with
    | nil => rw [List.foldl_nil, referencesOf, referencesOf, List.append_nil]
    | cons next rest ih =>
      rw [List.foldl_cons, ih, referencesOf, referencesOf, referencesOf, references_combine,
        List.append_assoc]

/-- Two predicates that are combined refer to the tables of both. -/
theorem mem_tables_combine {op : Connective} {p q : Predicate} {table : String} :
    table ∈ (combine op p q).tables ↔ table ∈ p.tables ∨ table ∈ q.tables := by
  simp only [mem_tables, references_combine, List.mem_append, or_and_right, exists_or]

/-- The tables of two combined predicates are those of the first, then those of the second
    that are not among them. -/
theorem tables_combine (op : Connective) (p q : Predicate) :
    (combine op p q).tables = p.tables ++ q.tables.filter fun table => table ∉ p.tables := by
  have hseen (references : List String) :
      (fun table => !references.elem table) =
        fun table => decide (table ∉ references.eraseDups) := by
    funext table
    simp
  rw [tables_eq, tables_eq, tables_eq, references_combine, qualifiers, List.filterMap_append,
    List.eraseDups_append, List.removeAll, eraseDups_filter, hseen]
  rfl

/-- So are the tables that are not available. -/
theorem missing_combine (op : Connective) (p q : Predicate) (available : List String) :
    (combine op p q).missing available = p.missing available ++
      (q.missing available).filter fun table => table ∉ p.missing available := by
  rw [missing, tables_combine, List.filter_append, missing, missing, List.filter_filter,
    List.filter_filter]
  refine congrArg _ (List.filter_congr fun table _ => ?_)
  by_cases h : table ∈ available <;> simp [h]

/-- **First-seen order.** The tables of a predicate are the qualifiers that occur in it, from
    left to right and each at its first occurrence only.  Those of two combined predicates
    come one after the other, without repetition.  The missing tables are those that are not
    available, in the same order: none if and only if all are available, and no others if more
    become available. -/
theorem tables_firstSeen (p : Predicate) :
    p.tables = (qualifiers p.references).eraseDups ∧ p.tables.Nodup ∧
      (∀ q : Predicate,
        (p.and q).tables = p.tables ++ q.tables.filter (fun table => table ∉ p.tables) ∧
          (p.or q).tables = p.tables ++ q.tables.filter fun table => table ∉ p.tables) ∧
      ∀ available,
        p.missing available = p.tables.filter (fun table => table ∉ available) ∧
          (p.missing available = [] ↔ p.tables ⊆ available) ∧
          ∀ more, available ⊆ more → (p.missing more).Sublist (p.missing available) := by
  exact ⟨p.tables_eq, p.tables_nodup, fun q => ⟨p.tables_combine .and q, p.tables_combine .or q⟩,
    fun available => ⟨rfl, missing_eq_nil, fun more hmore => p.missing_sublist hmore⟩⟩

/-- References at four depths, two of them to one table, and a subquery that is passed over. -/
theorem tables_firstSeen_nested :
    let query : Subquery := ⟨"t", none, [], none, some (.null "s.x" .isNull)⟩
    let p : Predicate := .group .or
      [.compare "m.a" .eq (.array [.predicate (.call "f" [.column "o.b", .predicate
        (.pattern "m.c" .like "x")])]), .member "u.d" .inside (.subquery query)]
    p.tables = ["m", "o", "u"] ∧ ["o"] ⊆ ["u", "o"] ∧
      (p.missing ["u", "o"]).Sublist (p.missing ["o"]) := by
  intro query p
  have hmore : ["o"] ⊆ ["u", "o"] := by decide
  obtain ⟨htables, -, -, hmissing⟩ := p.tables_firstSeen
  exact ⟨by rw [htables]; decide +kernel, hmore, (hmissing ["o"]).2.2 _ hmore⟩

end Predicate

example : (Predicate.combine .and (.null "m.a" .isNull) (.helper "h" [("k", .text "o.id"),
    ("l", .text "m.b")])).tables = ["m", "o"] := by decide +kernel

end RowPolicy
