import RowPolicy.Proofs.Manifest.Raws
import RowPolicy.Proofs.Sql.Empties

namespace RowPolicy

open Sql

/-!
# Empty lists in predicates

A membership in an empty list has a form of its own, so no predicate is written with an empty
list behind `IN`.  An array within an operand has none, and is written as it is:

* `Predicate.arrays` — the arrays that a predicate is written with;
* `filled_array`, `filled_list`, `filled_group`, ... — the forms without recursion, from their
  parts;
* `Predicate.filled_sql` — the text of a predicate, by recursion on all sorts at once;
* `Predicate.emptyArray_iff` — when there is an empty array in it.
-/

/-! ### Arrays -/

/-- The array that a list is written as, if it is written as one. -/
def Membership.listArrays : Membership → List Operand → List (List Operand)
  | contains, v :: vs => [v :: vs]
  | _, _ => []

/-- The arrays that a helper is written with, where `args` are those of its parameters. -/
def Helper.arrays (name : String) (params : List (String × Operand))
    (args : List (List Operand)) : List (List Operand) :=
  if (knownSql? name params).isSome then [] else args

mutual

/-- The arrays that an operand is written with. -/
def Operand.arrays : Operand → List (List Operand)
  | .array items => items :: Operand.arraysOf items
  | .predicate p => p.arrays
  | _ => []

/-- Those of some operands. -/
def Operand.arraysOf : List Operand → List (List Operand)
  | [] => []
  | v :: vs => v.arrays ++ Operand.arraysOf vs

/-- Those of some parameters. -/
def Operand.paramArraysOf : List (String × Operand) → List (List Operand)
  | [] => []
  | p :: ps => Operand.paramArrays p ++ Operand.paramArraysOf ps

/-- Those of a parameter. -/
def Operand.paramArrays : String × Operand → List (List Operand)
  | (_, v) => v.arrays

/-- Those of a membership in a source. -/
def Source.arrays (op : Membership) : Source → List (List Operand)
  | .values items => op.listArrays items ++ Operand.arraysOf items
  | .subquery q => q.arrays

/-- Those of an argument. -/
def Argument.arrays : Argument → List (List Operand)
  | .column _ => []
  | .predicate p => p.arrays

/-- Those of some arguments. -/
def Argument.arraysOf : List Argument → List (List Operand)
  | [] => []
  | a :: as => a.arrays ++ Argument.arraysOf as

/-- The arrays that a predicate is written with. -/
def Predicate.arrays : Predicate → List (List Operand)
  | .compare _ _ operand => operand.arrays
  | .member _ op source => Source.arrays op source
  | .group _ members => Predicate.arraysOf members
  | .helper name params => Helper.arrays name params (Operand.paramArraysOf params)
  | .call _ args => Argument.arraysOf args
  | _ => []

/-- Those of some predicates. -/
def Predicate.arraysOf : List Predicate → List (List Operand)
  | [] => []
  | p :: ps => p.arrays ++ Predicate.arraysOf ps

/-- Those of a join, if there is one. -/
def Join.arraysOf : Option Join → List (List Operand)
  | none => []
  | some j => j.arrays

/-- Those of a join. -/
def Join.arrays : Join → List (List Operand)
  | ⟨_, _, _, on⟩ => on.arrays

/-- Those of a filter, if there is one. -/
def Predicate.filterArrays : Option Predicate → List (List Operand)
  | none => []
  | some p => p.arrays

/-- The arrays that a subquery is written with. -/
def Subquery.arrays : Subquery → List (List Operand)
  | ⟨_, _, _, join, filter⟩ => Join.arraysOf join ++ Predicate.filterArrays filter

end

/-! ### Forms without recursion -/

section Forms

variable {texts : List String} {p : Prop}

/-- A plain name has no empty array in it. -/
theorem filled_word {s : String} (h : isPlainName s = true) : Filled s False :=
  filled_of_inert (inert_of_isPlainName h)

/-- A reference in quotes has none, as what is in quotes is passed over. -/
theorem filled_quoted (reference : String) : Filled (Reference.quoted reference) False :=
  filled_of_inert (inert_quoted reference)

/-- Nor has one that is quoted only where it has to be. -/
theorem filled_escaped (reference : String) : Filled (Reference.escaped reference) False :=
  filled_of_inert (inert_escaped reference)

/-- A quoted text has none, even if it looks like one. -/
theorem filled_quoteText (text : String) : Filled (quoteText text) False :=
  filled_of_inert (inert_quoteText text)

/-- Digits with a sign and a point. -/
theorem filled_numeral {negative : Bool} {whole : String} {fraction : Option String}
    (hwhole : Expr.IsDigits whole) (hfraction : ∀ f ∈ fraction, Expr.IsDigits f) :
    Filled (numeral negative whole fraction) False := by
  -- sign, digits and point are each passed without notice
  have hdigits {s : String} (h : Expr.IsDigits s) : Inert s.toList :=
    inert_of_isPlainName (isPlainName_of_isDigits h)
  have hpoint : Inert ".".toList := inert_of_all (by decide)
  have hminus : Inert "-".toList := inert_of_all (by decide)
  have hunsigned : Inert (numeral false whole fraction).toList := by
    cases fraction with
    | none => simpa [numeral] using hdigits hwhole
    | some f =>
      have hall := ((hdigits hwhole).append hpoint).append (hdigits (hfraction f rfl))
      simpa [numeral] using hall
  cases negative with
  | false => exact filled_of_inert hunsigned
  | true => exact filled_of_inert (by simpa [numeral] using hminus.append hunsigned)

/-- An integer has no empty array in it. -/
theorem filled_int (n : Int) : Filled (toString n) False := by
  rw [toString_eq_numeral]
  exact filled_numeral (isDigits_toDigits n.natAbs) (by simp)

/-- A number has none, whether it is written in digits or in quotes. -/
theorem filled_float (x : Float) : Filled (floatLiteral x) False := by
  unfold floatLiteral
  split
  · exact filled_quoteText "NaN"
  split
  · exact filled_quoteText _
  rw [write_eq]
  obtain ⟨hwhole, hfraction⟩ :=
    isDigits_digitGroups ((Decimal.Binary.ofBits x.toBits).shortest .up)
  exact filled_numeral hwhole hfraction

/-- An instant has none, as it is in quotes with its type behind them. -/
theorem filled_instant (t : Instant) : Filled (instantLiteral t) False := by
  have htype : Inert "::TIMESTAMP".toList := inert_of_all (by decide)
  apply filled_of_inert
  rw [instantLiteral, String.toList_append]
  exact (inert_quoteText t.text).append htype

/-- The array literal is the one form that does not tell the empty list from others. -/
theorem filled_array (h : FilledAll texts p) : Filled (arrayLiteral texts) (texts = [] ∨ p) := by
  intro t
  cases h with
  | nil =>
    -- only a scan that lets an empty array pass gets behind its bracket
    refine ⟨by decide, fun strict hstrict => ?_, fun _ => by decide⟩
    have hlenient : strict = false := by simpa using hstrict
    subst hlenient
    cases t <;> rfl
  | @cons text texts q r h hs =>
    have hfront : Passes t .square "ARRAY[" False := .of_scan (by cases t <;> decide)
    have hback : Passes .other .other "]" False := .of_scan (by decide)
    have hall := (FilledAll.cons h hs).bracketed hfront (List.cons_ne_nil text texts) hback
    exact hall.of_iff (by simp)

/-- A call has an empty array exactly if one of its arguments has; without arguments it has none. -/
theorem filled_apply (function : String) (h : FilledAll texts p) :
    Filled (applySql function texts) p := by
  intro t
  -- the list of arguments stands in round brackets, so it may be empty
  have hargs : Passes .other .other (joined ", " texts) p := by
    cases h with
    | nil => exact .of_scan (by decide)
    | @cons text texts q r h hs =>
      exact (FilledAll.cons h hs).joined passes_comma (List.cons_ne_nil text texts) .other
  have hopen : Passes .other .other "(" False := .of_scan (by decide)
  have hall := ((filled_escaped function t).append_plain hopen).plain_append hargs
  exact hall.append_plain passes_closing

/-- A column beside an operand has an empty array exactly if the operand has. -/
theorem filled_operator (column : String) {op text : String} (hop : Filled op False)
    (h : Filled text p) : Filled (Reference.quoted column ++ " " ++ op ++ " " ++ text) p := by
  intro t
  have hleft := ((filled_quoted column t).append_plain passes_space).append_plain (hop .space)
  exact (hleft.append_plain passes_space).plain_append (h .space)

/-- A test for null has no empty array in it. -/
theorem filled_null (column : String) (test : NullTest) :
    Filled (Reference.quoted column ++ " " ++ test.sql) False := by
  intro t
  have htest : Passes .space .other test.sql False := by
    cases test <;> exact .of_scan (by decide)
  exact ((filled_quoted column t).append_plain passes_space).append_plain htest

/-- A membership in a list has an empty array exactly if one of the items has. -/
theorem filled_list (column : String) (op : Membership) (h : FilledAll texts p) :
    Filled (op.listSql column texts) p := by
  intro t
  have hcolumn := filled_quoted column t
  cases h with
  | nil =>
    -- these are the forms of their own
    cases op with
    | inside => exact filled_word (s := "FALSE") (by decide) t
    | contains =>
      have hempty : Passes .other .other " @> '\x7b\x7d'" False := .of_scan (by decide)
      exact hcolumn.append_plain hempty
  | @cons text texts q r h hs =>
    have hitems := FilledAll.cons h hs
    have hne : text :: texts ≠ [] := List.cons_ne_nil text texts
    cases op with
    | inside =>
      have hin : Passes .other .opened " IN (" False := .of_scan (by decide)
      exact hitems.bracketed (hcolumn.append_plain hin) hne passes_closing
    | contains =>
      have hop : Passes .other .space " @> " False := .of_scan (by decide)
      have harray : Passes .space .other (arrayLiteral (text :: texts)) (q ∨ r) :=
        (filled_array hitems .space).of_iff (by simp)
      exact (hcolumn.append_plain hop).plain_append harray

/-- A membership in a subquery has an empty array exactly if the subquery has. -/
theorem filled_query (column : String) (op : Membership) {text : String} (h : Filled text p) :
    Filled (op.subquerySql column text) p := by
  intro t
  have hcolumn := filled_quoted column t
  cases op with
  | inside =>
    have hin : Passes .other .space " IN " False := .of_scan (by decide)
    exact (hcolumn.append_plain hin).plain_append (h .space)
  | contains =>
    have harray : Passes .other .other " @> ARRAY" False := .of_scan (by decide)
    exact (hcolumn.append_plain harray).plain_append (h .other)

/-- A group has an empty array exactly if one of its members has. -/
theorem filled_group (op : Connective) (h : FilledAll texts p) : Filled (op.groupSql texts) p := by
  intro t
  cases h with
  | nil => cases op <;> exact filled_word (by decide) t
  | @cons text texts q r h hs =>
    -- behind a space, the bracket might open an empty list
    obtain ⟨u, hopen⟩ : ∃ u, Passes t u "(" False := by
      cases t <;> exact ⟨_, .of_scan ⟨by decide, fun _ => rfl⟩⟩
    have hsep : Passes .other .space (" " ++ op.sql ++ " ") False := by
      cases op <;> exact .of_scan (by decide)
    have hmembers := (FilledAll.cons h hs).joined hsep (List.cons_ne_nil text texts) u
    have hall := (hopen.plain_append hmembers).append_plain passes_closing
    cases op <;> exact hall

/-- A context value has no empty array in it. -/
theorem filled_context (c : Context) : Filled c.sql False := by
  intro t
  cases c with
  | authUid => exact .of_scan (by cases t <;> decide)
  | currentUser => exact filled_word (by decide) t
  | setting key cast =>
    -- the key is in quotes between the name of the function and the type
    have hfront : Passes t .other "current_setting(" False :=
      .of_scan (by cases t <;> decide +kernel)
    have hback : Passes .other .other ", true)::" False := .of_scan (by decide)
    have htype : Filled cast.sql False := by
      cases cast <;> exact filled_word (by decide)
    exact ((hfront.append_plain (filled_quoteText key .other)).append_plain hback).append_plain
      (htype .other)

/-- Texts of which none has an empty array. -/
theorem filledAll_of_forall (h : ∀ text ∈ texts, Filled text False) : FilledAll texts False := by
  induction texts with
  | nil => exact .nil
  | cons text texts ih =>
    rw [List.forall_mem_cons] at h
    have hall := FilledAll.cons h.1 (ih h.2)
    rwa [or_self] at hall

/-- The columns of a query have no empty array in them. -/
theorem filled_columns (columns : List String) : Filled (columnsSql columns) False := by
  rw [columnsSql]
  split
  · exact filled_of_inert (inert_of_all (by decide))
  · rename_i hne
    refine (filledAll_of_forall fun text htext => ?_).joined passes_comma (by simpa using hne)
    obtain ⟨column, -, rfl⟩ := List.mem_map.mp htext
    exact filled_escaped column

/-- A table has none, with an alias or without. -/
theorem filled_table (table : String) (aliasName : Option String) :
    Filled (tableSql table aliasName) False := by
  intro t
  cases aliasName with
  | none => exact filled_escaped table t
  | some a =>
    have halias : Filled (escapeIdentifier a) False := filled_of_inert (inert_escapeIdentifier a)
    exact ((filled_escaped table t).append_plain passes_space).append_plain (halias .space)

/-- The test for a role has no empty array in it. -/
theorem filled_role (table role : String) : Filled (Helper.roleSql table role) False := by
  intro t
  -- the texts around the two names are scanned as they stand
  have hopen : Passes t .space "EXISTS (SELECT 1 FROM " False :=
    .of_scan (by cases t <;> decide +kernel)
  have hwhere : Passes .other .space " WHERE user_id = auth.uid() AND role = " False :=
    .of_scan (by decide +kernel)
  have hquery := (hopen.append_plain (filled_escaped table .space)).append_plain hwhere
  exact (hquery.append_plain (filled_quoteText role .space)).append_plain passes_closing

/-- The test for a member has no empty array in it. -/
theorem filled_member (table foreignKey localKey : String) :
    Filled (Helper.memberSql table foreignKey localKey) False := by
  intro t
  have hselect : Passes .other .space " IN (SELECT " False := .of_scan (by decide)
  have hfrom : Passes .other .space " FROM " False := .of_scan (by decide)
  have hwhere : Passes .other .space " WHERE " False := .of_scan (by decide)
  have hclose : Passes .other .other " = auth.uid())" False := .of_scan (by decide)
  have hquery := (((filled_quoted localKey t).append_plain hselect).append_plain
    (filled_escaped foreignKey .space)).append_plain hfrom
  exact (((hquery.append_plain (filled_escaped table .space)).append_plain hwhere).append_plain
    (filled_quoted Helper.userColumn .space)).append_plain hclose

/-- A helper has an empty array exactly if one of those it is written with is empty. -/
theorem filled_helper (name : String) (params : List (String × Operand))
    {args : List (List Operand)} (h : FilledAll texts ([] ∈ args)) :
    Filled (Helper.sql name params texts) ([] ∈ Helper.arrays name params args) := by
  rw [Helper.sql, Helper.arrays]
  -- a helper that is not known is a call, and the known ones have no arrays
  obtain ⟨hsql, -⟩ | ⟨-, hsql, -⟩ | ⟨table, role, -, hsql, -⟩ |
    ⟨table, foreignKey, localKey, -, -, hsql, -⟩ := Helper.known_cases name params
  · simpa [hsql] using filled_apply name h
  · have htrue : Filled "TRUE" False := filled_word (by decide)
    simpa [hsql] using htrue
  · simpa [hsql] using filled_role table role
  · simpa [hsql] using filled_member table foreignKey localKey

end Forms

/-! ### Predicates, operands and subqueries -/

/-- A text that is written with no arrays. -/
theorem filled_plain {s : String} (h : Filled s False) :
    Filled s ([] ∈ ([] : List (List Operand))) := fun t => (h t).of_iff (by simp)

/-- No texts, and no arrays. -/
theorem filledAll_nil : FilledAll [] ([] ∈ ([] : List (List Operand))) := by
  simpa using FilledAll.nil

/-- An empty list is not written as an array. -/
theorem nil_notMem_listArrays (op : Membership) (items : List Operand) :
    [] ∉ op.listArrays items := by
  cases op <;> cases items <;> simp [Membership.listArrays]

mutual

/-- A scan passes the text of an operand, which has an empty array in it if it is one or holds
    one. -/
theorem Operand.filled_sql :
    (v : Operand) → (∀ s ∈ v.raws, s = rawNow) → Filled v.sql ([] ∈ v.arrays)
  | .null, _ => filled_plain (filled_word (s := "NULL") (by decide))
  | .bool b, _ => by
    cases b with
    | true => exact filled_plain (filled_word (s := "TRUE") (by decide))
    | false => exact filled_plain (filled_word (s := "FALSE") (by decide))
  | .int n, _ => filled_plain (filled_int n.toInt)
  | .float x, _ => filled_plain (filled_float x)
  | .text s, _ => filled_plain (filled_quoteText s)
  | .instant t, _ => filled_plain (filled_instant t)
  | .array items, h => by
    intro t
    refine (filled_array (Operand.filled_sqls items h) t).of_iff ?_
    cases items <;> simp [Operand.sqls, Operand.arrays]
  | .raw sql, h => by
    -- the one text that is taken over is a call itself
    have hsql : sql = rawNow := h sql List.mem_cons_self
    subst hsql
    have hcall : Filled rawNow False := fun t => .of_scan (by cases t <;> decide)
    exact filled_plain hcall
  | .predicate p, h => p.filled_sql h

theorem Operand.filled_sqls :
    (vs : List Operand) → (∀ s ∈ Operand.rawsOf vs, s = rawNow) →
      FilledAll (Operand.sqls vs) ([] ∈ Operand.arraysOf vs)
  | [], _ => filledAll_nil
  | v :: vs, h => by
    rw [Operand.rawsOf, List.forall_mem_append] at h
    rw [Operand.arraysOf, List.mem_append]
    exact .cons (v.filled_sql h.1) (Operand.filled_sqls vs h.2)

theorem Operand.filled_paramSqls :
    (ps : List (String × Operand)) → (∀ s ∈ Operand.paramRawsOf ps, s = rawNow) →
      FilledAll (Operand.paramSqls ps) ([] ∈ Operand.paramArraysOf ps)
  | [], _ => filledAll_nil
  | p :: ps, h => by
    rw [Operand.paramRawsOf, List.forall_mem_append] at h
    rw [Operand.paramArraysOf, List.mem_append]
    exact .cons (Operand.filled_paramSql p h.1) (Operand.filled_paramSqls ps h.2)

theorem Operand.filled_paramSql :
    (p : String × Operand) → (∀ s ∈ Operand.paramRaws p, s = rawNow) →
      Filled (Operand.paramSql p) ([] ∈ Operand.paramArrays p)
  | (_, v), h => v.filled_sql h

/-- A scan passes the text of a membership, whose list is no array if it is empty. -/
theorem Source.filled_sql (column : String) (op : Membership) :
    (source : Source) → (∀ s ∈ source.raws, s = rawNow) →
      Filled (Source.sql column op source) ([] ∈ Source.arrays op source)
  | .values items, h => by
    intro t
    refine (filled_list column op (Operand.filled_sqls items h) t).of_iff ?_
    simp [Source.arrays, nil_notMem_listArrays]
  | .subquery q, h => filled_query column op (q.filled_sql h)

/-- A scan passes the text of an argument. -/
theorem Argument.filled_sql :
    (a : Argument) → (∀ s ∈ a.raws, s = rawNow) → Filled a.sql ([] ∈ a.arrays)
  | .column reference, _ => filled_plain (filled_quoted reference)
  | .predicate p, h => p.filled_sql h

theorem Argument.filled_sqls :
    (as : List Argument) → (∀ s ∈ Argument.rawsOf as, s = rawNow) →
      FilledAll (Argument.sqls as) ([] ∈ Argument.arraysOf as)
  | [], _ => filledAll_nil
  | a :: as, h => by
    rw [Argument.rawsOf, List.forall_mem_append] at h
    rw [Argument.arraysOf, List.mem_append]
    exact .cons (a.filled_sql h.1) (Argument.filled_sqls as h.2)

/-- A scan passes the text of a predicate, which has an empty array in it if one of its arrays
    is empty. -/
theorem Predicate.filled_sql :
    (p : Predicate) → (∀ s ∈ p.raws, s = rawNow) → Filled p.sql ([] ∈ p.arrays)
  | .compare column op operand, h => by
    have hop : Filled op.sql False := by
      cases op <;> exact filled_of_inert (inert_of_all (by decide))
    exact filled_operator column hop (operand.filled_sql h)
  | .pattern column op pattern, _ => by
    have hop : Filled op.sql False := by
      cases op <;> exact filled_word (by decide)
    exact filled_plain (filled_operator column hop (filled_quoteText pattern))
  | .member column op source, h => Source.filled_sql column op source h
  | .null column test, _ => filled_plain (filled_null column test)
  | .group op members, h => filled_group op (Predicate.filled_sqls members h)
  | .helper name params, h => filled_helper name params (Operand.filled_paramSqls params h)
  | .call name args, h => filled_apply name (Argument.filled_sqls args h)
  | .context c, _ => filled_plain (filled_context c)

theorem Predicate.filled_sqls :
    (ps : List Predicate) → (∀ s ∈ Predicate.rawsOf ps, s = rawNow) →
      FilledAll (Predicate.sqls ps) ([] ∈ Predicate.arraysOf ps)
  | [], _ => filledAll_nil
  | p :: ps, h => by
    rw [Predicate.rawsOf, List.forall_mem_append] at h
    rw [Predicate.arraysOf, List.mem_append]
    exact .cons (p.filled_sql h.1) (Predicate.filled_sqls ps h.2)

/-- A scan passes the clause of a join, which may be missing. -/
theorem Join.filled_clause :
    (join : Option Join) → (∀ s ∈ Join.rawsOf join, s = rawNow) →
      Passes .other .other (Join.clause join) ([] ∈ Join.arraysOf join)
  | none, _ => .of_iff (.of_scan (by decide)) (by simp [Join.arraysOf])
  | some j, h => by
    exact passes_space.plain_append (j.filled_sql h .space)

/-- A scan passes the text of a join, which has the arrays of its condition. -/
theorem Join.filled_sql :
    (j : Join) → (∀ s ∈ j.raws, s = rawNow) → Filled j.sql ([] ∈ j.arrays)
  | ⟨kind, table, aliasName, on⟩, h => by
    intro t
    have hkind : Filled kind.sql False := by
      cases kind <;> exact filled_word (by decide)
    have hjoin : Passes .other .space " JOIN " False := .of_scan (by decide)
    have hon : Passes .other .space " ON " False := .of_scan (by decide)
    have htable := (((hkind t).append_plain hjoin).append_plain
      (filled_table table aliasName .space)).append_plain hon
    exact htable.plain_append (on.filled_sql h .space)

/-- A scan passes the clause of a filter, which may be missing. -/
theorem Predicate.filled_whereClause :
    (filter : Option Predicate) → (∀ s ∈ Predicate.filterRaws filter, s = rawNow) →
      Passes .other .other (Predicate.whereClause filter) ([] ∈ Predicate.filterArrays filter)
  | none, _ => .of_iff (.of_scan (by decide)) (by simp [Predicate.filterArrays])
  | some p, h => by
    have hwhere : Passes .other .space " WHERE " False := .of_scan (by decide)
    exact hwhere.plain_append (p.filled_sql h .space)

/-- A scan passes the text of a subquery, which has the arrays of its clauses. -/
theorem Subquery.filled_sql :
    (q : Subquery) → (∀ s ∈ q.raws, s = rawNow) → Filled q.sql ([] ∈ q.arrays)
  | ⟨table, aliasName, columns, join, filter⟩, h => by
    intro t
    rw [Subquery.raws, List.forall_mem_append] at h
    have hopen : Passes t .space "(SELECT " False := .of_scan (by cases t <;> decide)
    have hfrom : Passes .other .space " FROM " False := .of_scan (by decide)
    -- the clauses from left to right
    have hsource := ((hopen.append_plain (filled_columns columns .space)).append_plain
      hfrom).append_plain (filled_table table aliasName .space)
    have hjoin := hsource.plain_append (Join.filled_clause join h.1)
    have hall := hjoin.append (Predicate.filled_whereClause filter h.2)
    exact (hall.append_plain passes_closing).of_iff (by rw [Subquery.arrays, List.mem_append])

end

/-! ### Empty lists -/

namespace Predicate

/-- **Empty lists in predicates.** A predicate that takes over no SQL but `now()`, or that a
    draft without SQL of its own is realized as, is never written with an empty list behind
    `IN`.  It is written with an empty array exactly if one of the arrays that it is written
    with has no items. -/
theorem emptyArray_iff (p : Predicate)
    (h : (∀ s ∈ p.raws, s = rawNow) ∨
      ∃ draft : PredicateDraft, draft.raws = [] ∧ draft.realize = .ok p) :
    ¬ ShownIn "IN ()" p.sql ∧ (ShownIn "ARRAY[]" p.sql ↔ [] ∈ p.arrays) := by
  have hraws : ∀ s ∈ p.raws, s = rawNow := by
    obtain h | ⟨draft, hnone, hrealize⟩ := h
    · exact h
    · have hdraft : Within [] draft.raws := by
        rw [hnone]
        exact within_nil
      intro s hs
      simpa using draft.raws_realize hdraft hrealize s hs
  exact ⟨(p.filled_sql hraws).not_shownIn_list, (p.filled_sql hraws).shownIn_array⟩

/-- Memberships in empty lists and a string that looks like them; a parameter with an empty array
    in it; and a draft. -/
theorem emptyArray_iff_nested :
    let listed : Predicate := .group .or [.member "a" .inside (.values []),
      .member "b" .contains (.values []), .compare "c" .eq (.text "IN () ARRAY[]")]
    let nested : Predicate := .call "f" [.predicate (.helper "g" [("x", .array [.array []])])]
    let draft : PredicateDraft := .compare "a" .ne (.array [.null, .array []])
    (∀ s ∈ listed.raws ++ nested.raws, s = rawNow) ∧ draft.raws = [] ∧
      ¬ ShownIn "IN ()" listed.sql ∧ ¬ ShownIn "ARRAY[]" listed.sql ∧
      ShownIn "ARRAY[]" nested.sql ∧
      ∃ p, draft.realize = .ok p ∧ ¬ ShownIn "IN ()" p.sql ∧ ShownIn "ARRAY[]" p.sql := by
  intro listed nested draft
  obtain ⟨hlist, hlisted⟩ := emptyArray_iff listed (.inl (by decide))
  obtain ⟨-, hnested⟩ := emptyArray_iff nested (.inl (by decide))
  obtain ⟨hin, harray⟩ := emptyArray_iff (.compare "a" .ne (.array [.null, .array []]))
    (.inr ⟨draft, rfl, rfl⟩)
  -- of the three predicates, two have an empty array at some depth
  have hempty : [] ∈ (Predicate.compare "a" .ne (.array [.null, .array []])).arrays := by
    simp [arrays, Operand.arrays, Operand.arraysOf]
  refine ⟨by decide, rfl, hlist, hlisted.not.mpr ?_, hnested.mpr ?_, _, rfl, hin, harray.mpr hempty⟩
  · simp [listed, arrays, arraysOf, Operand.arrays, Operand.arraysOf, Source.arrays,
      Membership.listArrays]
  · simp [nested, arrays, Argument.arraysOf, Argument.arrays, Helper.arrays, Helper.knownSql?,
      Helper.alwaysTrue, Helper.hasRole, Helper.isMemberOf, Operand.paramArraysOf,
      Operand.paramArrays, Operand.arrays, Operand.arraysOf]

/-- A comparison with an empty array is written with it, although a membership in an empty list
    has a form of its own. -/
theorem compares_emptyArray :
    let p : Predicate := .compare "a" .eq (.array [])
    p.raws = [] ∧ p.sql = "\"a\" = ARRAY[]" ∧ ShownIn "ARRAY[]" p.sql := by
  decide

end Predicate

end RowPolicy
