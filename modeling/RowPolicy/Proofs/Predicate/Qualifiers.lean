import RowPolicy.Proofs.Predicate.QuotedColumns

namespace RowPolicy

open Sql Sql.Piece

/-!
# The walk meets every written qualifier

The tables of a predicate and its text come from two walks of their own.  The text drops the
column of an empty list and reads the parameters of a helper by name; the walk for tables
takes every text among them for a reference.  Still no table is named by the text that the
other walk does not meet:

* `Predicate.quotedColumns_sublist` — each reference that the text quotes is one that the walk
  comes to;
* `Predicate.withSubquery`, `Predicate.tables_withSubquery` — subqueries do not matter for it;
* `Predicate.qualifiers_met` — all of this together.
-/

/-! ### The walk for tables -/

/-- A membership in a list is written with its column at most. -/
theorem Membership.listColumns_sublist (column : String) (op : Membership) (items : List Operand) :
    (op.listColumns column items).Sublist [column] := by
  cases op with
  | inside =>
    cases items with
    | nil => exact List.nil_sublist _
    | cons => exact List.Sublist.refl _
  | contains => cases items <;> exact List.Sublist.refl _

/-- A helper is written with columns from its parameters. -/
theorem Helper.quotedColumns_sublist (name : String) {params : List (String × Operand)}
    {args : List String} (h : args.Sublist (Operand.paramReferencesOf params)) :
    (Helper.quotedColumns name params args).Sublist (Operand.paramReferencesOf params) := by
  unfold Helper.quotedColumns
  split
  · exact h
  split
  · cases hkey : textParam? params "local_key" with
    | none => exact List.nil_sublist _
    | some key =>
      -- the first parameter of this name; the walk reads all the texts among them
      exact List.singleton_sublist.mpr (mem_paramReferencesOf hkey)
  · exact List.nil_sublist _

mutual

/-- An operand is written with columns from its references, in order. -/
theorem Operand.quotedColumns_sublist : (v : Operand) → v.quotedColumns.Sublist v.references
  | .predicate p => p.quotedColumns_sublist
  | .array items => Operand.quotedColumnsOf_sublist items
  | .null | .bool _ | .int _ | .float _ | .text _ | .instant _ | .raw _ => List.nil_sublist _

theorem Operand.quotedColumnsOf_sublist :
    (vs : List Operand) → (Operand.quotedColumnsOf vs).Sublist (Operand.referencesOf vs)
  | [] => List.nil_sublist _
  | v :: vs => List.Sublist.append v.quotedColumns_sublist (Operand.quotedColumnsOf_sublist vs)

theorem Operand.paramQuotedColumnsOf_sublist :
    (ps : List (String × Operand)) →
      (Operand.paramQuotedColumnsOf ps).Sublist (Operand.paramReferencesOf ps)
  | [] => List.nil_sublist _
  | p :: ps =>
    List.Sublist.append (Operand.paramQuotedColumns_sublist p)
      (Operand.paramQuotedColumnsOf_sublist ps)

theorem Operand.paramQuotedColumns_sublist :
    (p : String × Operand) → (Operand.paramQuotedColumns p).Sublist (Operand.paramReferences p)
  | (_, .predicate p) => p.quotedColumns_sublist
  | (_, .array items) => Operand.quotedColumnsOf_sublist items
  | (_, .null) | (_, .bool _) | (_, .int _) | (_, .float _) | (_, .text _) | (_, .instant _)
  | (_, .raw _) => List.nil_sublist _

/-- A membership is written with columns from its own and those of its source. -/
theorem Source.quotedColumns_sublist (column : String) (op : Membership) :
    (source : Source) →
      (Source.quotedColumns column op source).Sublist (column :: source.references)
  | .values items =>
    List.Sublist.append (op.listColumns_sublist column items)
      (Operand.quotedColumnsOf_sublist items)
  | .subquery _ => List.Sublist.refl _

/-- An argument is written with columns from its references. -/
theorem Argument.quotedColumns_sublist : (a : Argument) → a.quotedColumns.Sublist a.references
  | .column _ => List.Sublist.refl _
  | .predicate p => p.quotedColumns_sublist

theorem Argument.quotedColumnsOf_sublist :
    (as : List Argument) → (Argument.quotedColumnsOf as).Sublist (Argument.referencesOf as)
  | [] => List.nil_sublist _
  | a :: as =>
    List.Sublist.append a.quotedColumns_sublist (Argument.quotedColumnsOf_sublist as)

/-- The walk for tables comes to every reference that the text quotes. -/
theorem Predicate.quotedColumns_sublist : (p : Predicate) → p.quotedColumns.Sublist p.references
  | .compare column _ operand => operand.quotedColumns_sublist.cons_cons column
  | .member column op source => source.quotedColumns_sublist column op
  | .group _ members => Predicate.quotedColumnsOf_sublist members
  | .helper name params =>
    Helper.quotedColumns_sublist name (Operand.paramQuotedColumnsOf_sublist params)
  | .call _ args => Argument.quotedColumnsOf_sublist args
  | .pattern .. | .null .. | .context _ => List.Sublist.refl _

theorem Predicate.quotedColumnsOf_sublist :
    (ps : List Predicate) → (Predicate.quotedColumnsOf ps).Sublist (Predicate.referencesOf ps)
  | [] => List.nil_sublist _
  | p :: ps =>
    List.Sublist.append p.quotedColumns_sublist (Predicate.quotedColumnsOf_sublist ps)

end

/-! ### Other subqueries -/

mutual

/-- An operand with the same subquery in place of each of its subqueries. -/
def Operand.withSubquery (q : Subquery) : Operand → Operand
  | .predicate p => .predicate (p.withSubquery q)
  | .array items => .array (Operand.withSubqueries q items)
  | v => v

/-- Operands with the same subquery in place of each of their subqueries. -/
def Operand.withSubqueries (q : Subquery) : List Operand → List Operand
  | [] => []
  | v :: vs => v.withSubquery q :: Operand.withSubqueries q vs

/-- Parameters with the same subquery in place of each of their subqueries. -/
def Operand.paramsWithSubquery (q : Subquery) : List (String × Operand) → List (String × Operand)
  | [] => []
  | p :: ps => Operand.paramWithSubquery q p :: Operand.paramsWithSubquery q ps

/-- A parameter with the same subquery in place of each of its subqueries. -/
def Operand.paramWithSubquery (q : Subquery) : String × Operand → String × Operand
  | (name, v) => (name, v.withSubquery q)

/-- A source with the same subquery in place of each of its subqueries. -/
def Source.withSubquery (q : Subquery) : Source → Source
  | .values items => .values (Operand.withSubqueries q items)
  | .subquery _ => .subquery q

/-- An argument with the same subquery in place of each of its subqueries. -/
def Argument.withSubquery (q : Subquery) : Argument → Argument
  | .column reference => .column reference
  | .predicate p => .predicate (p.withSubquery q)

/-- Arguments with the same subquery in place of each of their subqueries. -/
def Argument.withSubqueries (q : Subquery) : List Argument → List Argument
  | [] => []
  | a :: as => a.withSubquery q :: Argument.withSubqueries q as

/-- A predicate with the same subquery in place of each of its subqueries, at any depth. -/
def Predicate.withSubquery (q : Subquery) : Predicate → Predicate
  | .compare column op operand => .compare column op (operand.withSubquery q)
  | .member column op source => .member column op (source.withSubquery q)
  | .group op members => .group op (Predicate.withSubqueries q members)
  | .helper name params => .helper name (Operand.paramsWithSubquery q params)
  | .call name args => .call name (Argument.withSubqueries q args)
  | p => p

/-- Predicates with the same subquery in place of each of their subqueries. -/
def Predicate.withSubqueries (q : Subquery) : List Predicate → List Predicate
  | [] => []
  | p :: ps => p.withSubquery q :: Predicate.withSubqueries q ps

end

section

variable (q : Subquery)

mutual

/-- The references of an operand do not depend on its subqueries. -/
theorem Operand.references_withSubquery :
    (v : Operand) → (v.withSubquery q).references = v.references
  | .predicate p => p.references_withSubquery
  | .array items => Operand.referencesOf_withSubqueries items
  | .null | .bool _ | .int _ | .float _ | .text _ | .instant _ | .raw _ => rfl

theorem Operand.referencesOf_withSubqueries :
    (vs : List Operand) →
      Operand.referencesOf (Operand.withSubqueries q vs) = Operand.referencesOf vs
  | [] => rfl
  | v :: vs =>
    congrArg₂ (· ++ ·) v.references_withSubquery (Operand.referencesOf_withSubqueries vs)

theorem Operand.paramReferencesOf_withSubquery :
    (ps : List (String × Operand)) →
      Operand.paramReferencesOf (Operand.paramsWithSubquery q ps) = Operand.paramReferencesOf ps
  | [] => rfl
  | p :: ps =>
    congrArg₂ (· ++ ·) (Operand.paramReferences_withSubquery p)
      (Operand.paramReferencesOf_withSubquery ps)

theorem Operand.paramReferences_withSubquery :
    (p : String × Operand) →
      Operand.paramReferences (Operand.paramWithSubquery q p) = Operand.paramReferences p
  | (_, .predicate p) => p.references_withSubquery
  | (_, .array items) => Operand.referencesOf_withSubqueries items
  | (_, .null) | (_, .bool _) | (_, .int _) | (_, .float _) | (_, .text _) | (_, .instant _)
  | (_, .raw _) => rfl

/-- A membership refers to the same tables whatever its subquery is. -/
theorem Source.references_withSubquery :
    (source : Source) → (source.withSubquery q).references = source.references
  | .values items => Operand.referencesOf_withSubqueries items
  | .subquery _ => rfl

/-- The references of an argument do not depend on its subqueries. -/
theorem Argument.references_withSubquery :
    (a : Argument) → (a.withSubquery q).references = a.references
  | .column _ => rfl
  | .predicate p => p.references_withSubquery

theorem Argument.referencesOf_withSubqueries :
    (as : List Argument) →
      Argument.referencesOf (Argument.withSubqueries q as) = Argument.referencesOf as
  | [] => rfl
  | a :: as =>
    congrArg₂ (· ++ ·) a.references_withSubquery (Argument.referencesOf_withSubqueries as)

/-- The walk for tables passes over subqueries, so it comes to the same references. -/
theorem Predicate.references_withSubquery :
    (p : Predicate) → (p.withSubquery q).references = p.references
  | .compare column _ operand => congrArg (column :: ·) operand.references_withSubquery
  | .member column _ source => congrArg (column :: ·) source.references_withSubquery
  | .group _ members => Predicate.referencesOf_withSubqueries members
  | .helper _ params => Operand.paramReferencesOf_withSubquery params
  | .call _ args => Argument.referencesOf_withSubqueries args
  | .pattern .. | .null .. | .context _ => rfl

theorem Predicate.referencesOf_withSubqueries :
    (ps : List Predicate) →
      Predicate.referencesOf (Predicate.withSubqueries q ps) = Predicate.referencesOf ps
  | [] => rfl
  | p :: ps =>
    congrArg₂ (· ++ ·) p.references_withSubquery (Predicate.referencesOf_withSubqueries ps)

end

end

namespace Predicate

/-- A predicate has the same tables whatever its subqueries are. -/
theorem tables_withSubquery (q : Subquery) (p : Predicate) :
    (p.withSubquery q).tables = p.tables := by
  rw [tables_eq, tables_eq, references_withSubquery]

/-- **No written qualifier is missed.** From the text of a predicate that takes over no SQL
    but `now()` certain references can be read, which stand in quotes outside its subqueries.
    If one of them as it is written has several segments, and the first is not empty, then
    the name of the first is a table of the predicate.  Predicates that differ in their
    subqueries at most have the same tables. -/
theorem qualifiers_met (p : Predicate) (h : ∀ s ∈ p.raws, s = rawNow) :
    (∃ ps, tokens? p.sql = some (tokensOf ps) ∧
      columnsIn false ps = p.quotedColumns.map quotedPath) ∧
    (∀ reference ∈ p.quotedColumns, ∀ name,
      Reference.qualifier? (Reference.quoted reference) = some name → name ∈ p.tables) ∧
    ∀ (other : Predicate) (q : Subquery),
      other.withSubquery q = p.withSubquery q → other.tables = p.tables := by
  refine ⟨⟨p.expr.pieces, (p.spells_sql h).tokens?, p.shows_expr.columnsIn_eq⟩, ?_, ?_⟩
  · intro reference hreference name hname
    -- the walk looks at the reference as it is given, not as it is written
    rw [Reference.qualifier_quoted] at hname
    exact mem_tables.mpr ⟨reference, p.quotedColumns_sublist.subset hreference, hname⟩
  -- the walk passes over subqueries, so it cannot tell the two apart
  · intro other q hsame
    rw [← tables_withSubquery q other, hsame, tables_withSubquery]

/-- The key of a helper in an array that a call compares with, below a membership in a
    subquery, which may be another one. -/
theorem qualifiers_met_helper :
    let key : Predicate := .helper "is_member_of" [("local_key", .text "my t.id"),
      ("join_table", .text "x.members"), ("foreign_key", .text "fk")]
    let p (table : String) : Predicate := .group .or
      [.member "m.a" .contains (.subquery ⟨table, none, [], none, some (.null "s.x" .isNull)⟩),
        .call "f" [.predicate (.compare "\"o\".b" .eq (.array [.predicate key]))]]
    (∀ s ∈ (p "t").raws, s = rawNow) ∧
      Reference.qualifier? (Reference.quoted "my t.id") = some "my t" ∧
      "my t" ∈ (p "t").tables ∧ (p "u").tables = (p "t").tables := by
  intro key p
  have hraws : ∀ s ∈ (p "t").raws, s = rawNow := by decide
  have hname : Reference.qualifier? (Reference.quoted "my t.id") = some "my t" := by
    decide +kernel
  -- the qualifier stands in quotes in the text, and without them in the list of tables
  obtain ⟨-, hmet, hsame⟩ := (p "t").qualifiers_met hraws
  have hquoted : "my t.id" ∈ (p "t").quotedColumns := by decide +kernel
  exact ⟨hraws, hname, hmet _ hquoted _ hname, hsame (p "u") ⟨"v", none, [], none, none⟩ rfl⟩

end Predicate

example :
    let p : Predicate := .call "My f" [.column "a.b", .predicate (.member "c" .inside
      (.values [.text "\"d\"", .predicate (.null "e.*" .isNull)])), .predicate
        (.member "g" .contains (.subquery ⟨"t", none, ["h"], none, none⟩))]
    ((tokens? p.sql).bind fun ts => (group [] [] ts).map (columnsIn false)) =
      some (["a.b", "c", "e.*", "g"].map quotedPath) := by
  decide +kernel

end RowPolicy
