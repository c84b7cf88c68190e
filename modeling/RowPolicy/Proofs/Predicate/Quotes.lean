import RowPolicy.Proofs.Predicate.Empties
import RowPolicy.Proofs.Sql.QuotedNames

namespace RowPolicy

open Sql

/-!
# Predicates close their quotes

Names and strings are written in quotes that are closed, and so is all that a predicate puts
around them.  Only SQL that is taken over as it is could leave a quotation mark open:

* `closes_array`, `closes_list`, `closes_group`, ... — the forms with recursion, from their parts;
* `Predicate.closes_sql` — the text of a predicate, by recursion on all sorts at once.
-/

/-! ### Forms with recursion -/

section Forms

/-- A text without SQL of its own has been scanned for empty lists already. -/
theorem closes_of_filled {s : String} {p : Prop} (h : Filled s p) : Closes s :=
  (h .other).ends_outside

/-- A reference that is quoted only where it has to be closes its quotes. -/
theorem closes_escaped (reference : String) : Closes (Reference.escaped reference) :=
  (inert_escaped reference).ends_outside

/-- A quoted text closes its quotes, whatever is in it. -/
theorem closes_quoteText (text : String) : Closes (quoteText text) :=
  (inert_quoteText text).ends_outside

/-- Two constants around a text. -/
theorem Sql.Closes.within {s front back : String} (h : Closes s) (hfront : Closes front)
    (hback : Closes back) : Closes (front ++ s ++ back) := (hfront.append h).append hback

variable {texts : List String} (h : ∀ text ∈ texts, Closes text)

include h

/-- Texts between commas close their quotes if each does. -/
theorem closes_commas : Closes (joined ", " texts) := closes_joined (by decide) h

/-- So does an array of them. -/
theorem closes_array : Closes (arrayLiteral texts) :=
  (closes_commas h).within (by decide) (by decide)

/-- So does a call of them. -/
theorem closes_apply (function : String) : Closes (applySql function texts) := by
  have hopen : Closes "(" := by decide
  exact (((closes_escaped function).append hopen).append (closes_commas h)).append (by decide)

/-- So does a membership in a list of them, and in an empty list. -/
theorem closes_list (column : String) (op : Membership) : Closes (op.listSql column texts) := by
  have hcolumn := closes_quoted column
  have hin : Closes " IN (" := by decide
  have hop : Closes " @> " := by decide
  cases texts with
  -- the two forms for an empty list take over nothing
  | nil =>
    cases op with
    | inside => exact (by decide : Closes "FALSE")
    | contains => exact hcolumn.append (by decide)
  | cons text texts =>
    cases op with
    | inside => exact ((hcolumn.append hin).append (closes_commas h)).append (by decide)
    | contains => exact (hcolumn.append hop).append (closes_array h)

/-- So does a group of them. -/
theorem closes_group (op : Connective) : Closes (op.groupSql texts) := by
  have hsep : Closes (" " ++ op.sql ++ " ") := by cases op <;> decide
  have hmembers := (closes_joined hsep h).within (by decide : Closes "(") (by decide : Closes ")")
  cases texts with
  | nil =>
    cases op with
    | and => exact (by decide : Closes "TRUE")
    | or => exact (by decide : Closes "FALSE")
  | cons text texts => cases op <;> exact hmembers

/-- So does a helper with them. -/
theorem closes_helper (name : String) (params : List (String × Operand)) :
    Closes (Helper.sql name params texts) := by
  rw [Helper.sql]
  obtain ⟨hsql, -⟩ | ⟨-, hsql, -⟩ | ⟨table, role, -, hsql, -⟩ |
    ⟨table, foreignKey, localKey, -, -, hsql, -⟩ := Helper.known_cases name params
  · simpa [hsql] using closes_apply h name
  · rw [hsql]
    exact (by decide : Closes "TRUE")
  · simpa [hsql] using closes_of_filled (filled_role table role)
  · simpa [hsql] using closes_of_filled (filled_member table foreignKey localKey)

omit h

/-- A column beside an operand closes its quotes if the operand does. -/
theorem closes_operator (column : String) {op text : String} (hop : Closes op)
    (h : Closes text) : Closes (Reference.quoted column ++ " " ++ op ++ " " ++ text) := by
  have hspace : Closes " " := by decide
  exact ((((closes_quoted column).append hspace).append hop).append hspace).append h

/-- A membership in a subquery closes its quotes if the subquery does. -/
theorem closes_query (column : String) (op : Membership) {text : String} (h : Closes text) :
    Closes (op.subquerySql column text) := by
  have hin : Closes " IN " := by decide
  have harray : Closes " @> ARRAY" := by decide
  cases op with
  | inside => exact ((closes_quoted column).append hin).append h
  | contains => exact ((closes_quoted column).append harray).append h

end Forms

/-! ### Predicates, operands and subqueries -/

mutual

/-- An operand closes its quotes if what it takes over does. -/
theorem Operand.closes_sql : (v : Operand) → (∀ s ∈ v.raws, Closes s) → Closes v.sql
  | .null, _ => (by decide : Closes "NULL")
  | .bool b, _ => by
    cases b with
    | true => exact (by decide : Closes "TRUE")
    | false => exact (by decide : Closes "FALSE")
  | .int n, _ => closes_of_filled (filled_int n.toInt)
  | .float x, _ => closes_of_filled (filled_float x)
  | .text s, _ => closes_quoteText s
  | .instant t, _ => closes_of_filled (filled_instant t)
  | .array items, h => closes_array (Operand.closes_sqls items h)
  | .raw _, h => h _ List.mem_cons_self
  | .predicate p, h => p.closes_sql h

theorem Operand.closes_sqls :
    (vs : List Operand) → (∀ s ∈ Operand.rawsOf vs, Closes s) →
      ∀ text ∈ Operand.sqls vs, Closes text
  | [], _ => List.forall_mem_nil _
  | v :: vs, h => by
    rw [Operand.rawsOf, List.forall_mem_append] at h
    exact List.forall_mem_cons.mpr ⟨v.closes_sql h.1, Operand.closes_sqls vs h.2⟩

theorem Operand.closes_paramSqls :
    (ps : List (String × Operand)) → (∀ s ∈ Operand.paramRawsOf ps, Closes s) →
      ∀ text ∈ Operand.paramSqls ps, Closes text
  | [], _ => List.forall_mem_nil _
  | p :: ps, h => by
    rw [Operand.paramRawsOf, List.forall_mem_append] at h
    exact List.forall_mem_cons.mpr ⟨Operand.closes_paramSql p h.1, Operand.closes_paramSqls ps h.2⟩

theorem Operand.closes_paramSql :
    (p : String × Operand) → (∀ s ∈ Operand.paramRaws p, Closes s) → Closes (Operand.paramSql p)
  | (_, v), h => v.closes_sql h

/-- A membership closes its quotes if what its source takes over does. -/
theorem Source.closes_sql (column : String) (op : Membership) :
    (source : Source) → (∀ s ∈ source.raws, Closes s) → Closes (Source.sql column op source)
  | .values items, h => closes_list (Operand.closes_sqls items h) column op
  | .subquery q, h => closes_query column op (q.closes_sql h)

/-- An argument closes its quotes if what it takes over does. -/
theorem Argument.closes_sql : (a : Argument) → (∀ s ∈ a.raws, Closes s) → Closes a.sql
  | .column reference, _ => closes_quoted reference
  | .predicate p, h => p.closes_sql h

theorem Argument.closes_sqls :
    (as : List Argument) → (∀ s ∈ Argument.rawsOf as, Closes s) →
      ∀ text ∈ Argument.sqls as, Closes text
  | [], _ => List.forall_mem_nil _
  | a :: as, h => by
    rw [Argument.rawsOf, List.forall_mem_append] at h
    exact List.forall_mem_cons.mpr ⟨a.closes_sql h.1, Argument.closes_sqls as h.2⟩

/-- A predicate closes its quotes if the SQL that it takes over does. -/
theorem Predicate.closes_sql : (p : Predicate) → (∀ s ∈ p.raws, Closes s) → Closes p.sql
  | .compare column op operand, h => by
    have hop : Closes op.sql := by cases op <;> decide
    exact closes_operator column hop (operand.closes_sql h)
  | .pattern column op pattern, _ => by
    have hop : Closes op.sql := by cases op <;> decide
    exact closes_operator column hop (closes_quoteText pattern)
  | .member column op source, h => source.closes_sql column op h
  | .null column test, _ => closes_of_filled (filled_null column test)
  | .group op members, h => closes_group (Predicate.closes_sqls members h) op
  | .helper name params, h => closes_helper (Operand.closes_paramSqls params h) name params
  | .call name args, h => closes_apply (Argument.closes_sqls args h) name
  | .context c, _ => closes_of_filled (filled_context c)

theorem Predicate.closes_sqls :
    (ps : List Predicate) → (∀ s ∈ Predicate.rawsOf ps, Closes s) →
      ∀ text ∈ Predicate.sqls ps, Closes text
  | [], _ => List.forall_mem_nil _
  | p :: ps, h => by
    rw [Predicate.rawsOf, List.forall_mem_append] at h
    exact List.forall_mem_cons.mpr ⟨p.closes_sql h.1, Predicate.closes_sqls ps h.2⟩

/-- The clause of a join closes its quotes if what the join takes over does. -/
theorem Join.closes_clause :
    (join : Option Join) → (∀ s ∈ Join.rawsOf join, Closes s) → Closes (Join.clause join)
  | none, _ => (by decide : Closes "")
  | some j, h => (by decide : Closes " ").append (j.closes_sql h)

/-- A join closes its quotes if what its condition takes over does. -/
theorem Join.closes_sql : (j : Join) → (∀ s ∈ j.raws, Closes s) → Closes j.sql
  | ⟨kind, table, aliasName, on⟩, h => by
    have hkind : Closes kind.sql := by cases kind <;> decide
    have hjoin : Closes " JOIN " := by decide
    have hon : Closes " ON " := by decide
    have htable := closes_of_filled (filled_table table aliasName)
    exact (((hkind.append hjoin).append htable).append hon).append (on.closes_sql h)

/-- The clause of a filter closes its quotes if what the filter takes over does. -/
theorem Predicate.closes_whereClause :
    (filter : Option Predicate) → (∀ s ∈ Predicate.filterRaws filter, Closes s) →
      Closes (Predicate.whereClause filter)
  | none, _ => (by decide : Closes "")
  | some p, h => (by decide : Closes " WHERE ").append (p.closes_sql h)

/-- A subquery closes its quotes if what its clauses take over does. -/
theorem Subquery.closes_sql : (q : Subquery) → (∀ s ∈ q.raws, Closes s) → Closes q.sql
  | ⟨table, aliasName, columns, join, filter⟩, h => by
    rw [Subquery.raws, List.forall_mem_append] at h
    have hopen : Closes "(SELECT " := by decide
    have hfrom : Closes " FROM " := by decide
    have hcolumns := closes_of_filled (filled_columns columns)
    have htable := closes_of_filled (filled_table table aliasName)
    -- the clauses from left to right
    have hsource := ((hopen.append hcolumns).append hfrom).append htable
    have hclauses := (hsource.append (Join.closes_clause join h.1)).append
      (Predicate.closes_whereClause filter h.2)
    exact hclauses.append (by decide)

end

end RowPolicy
