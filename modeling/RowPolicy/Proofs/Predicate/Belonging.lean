import RowPolicy.Predicate.Forms
import RowPolicy.Proofs.Predicate.Expr
import RowPolicy.Proofs.Sql.Naming

namespace RowPolicy

open Sql

/-!
# Membership in a column of another table

A test that the user belongs to another table looks for the value of a column among the
values that a query on the other table selects.  It takes the reference of the column over
into that query, where other tables are in scope and other quotes are written:

* `Sql.TableName.Owns` — a column that a query takes from a certain table;
* `Sql.Expr.TestsOwnColumn` — a test against the column of the same name in the other table;
* `Predicate.userBelongsTo_testsOwnColumn` — the references for which the test is of this
  kind;
* `Predicate.userBelongsTo_outer_column` — a test that compares a row with itself.
-/

namespace Sql

/-! ### Columns of a table -/

/-- What the names of a path stand for. -/
def denoted (path : List Name) : List (Option String) := path.map Name.denotes?

/-- A column that is not qualified, or is qualified by what a query calls the table: the last
    names of its path, or its alias. -/
def TableName.Owns (t : TableName) (path : List Name) : Prop :=
  (denoted path).dropLast <:+ denoted t.visiblePath ∧ none ∉ (denoted path).dropLast

/-- A test of a column against the column of the same name in the table of a query. -/
def Expr.TestsOwnColumn : Expr → Prop
  | .inQuery (.column tested) (.select [.column selected] (.table t) _) =>
    t.Owns selected ∧ ∃ name, lastOf? selected = some name ∧ lastOf? tested = some name
  | _ => False

/-- What the segments of a reference are read as if they are written without quotes where
    possible. -/
def namesRead (reference : String) : List (Option String) :=
  (Reference.segments reference).map fun segment => (segmentName identifierName segment).denotes?

/-- The names read from a reference are those its path stands for. -/
theorem denoted_escapedPath (reference : String) :
    denoted (escapedPath reference) = namesRead reference :=
  List.map_map

/-- Only `*` is written as such. -/
theorem pathWith_eq_star {form : String → Name} (hform : ∀ s, form s ≠ .star)
    {reference : String} :
    pathWith form reference = [.star] ↔ Reference.segments reference = ["*"] := by
  rw [pathWith, List.map_eq_singleton_iff]
  constructor
  -- a segment that is written as `*` is `*`, as a quoted one is written in quotes
  · rintro ⟨segment, hsegments, hread⟩
    have hstar : segment = "*" := by
      by_contra hstar
      cases hname : Reference.quotedName? segment with
      | some name =>
        rw [segmentName_of_quotedName hname] at hread
        cases hread
      | none =>
        rw [segmentName_of_none hstar hname] at hread
        exact hform segment hread
    rw [hsegments, hstar]
  · intro hsegments
    exact ⟨"*", hsegments, segmentName_star form⟩

/-- In quotes, only `*` by itself is written as such. -/
theorem quotedPath_eq_star {reference : String} :
    quotedPath reference = [.star] ↔ Reference.segments reference = ["*"] :=
  pathWith_eq_star fun _ => Name.noConfusion

/-- Without quotes, only `*` by itself is written as such. -/
theorem escapedPath_eq_star {reference : String} :
    escapedPath reference = [.star] ↔ Reference.segments reference = ["*"] := by
  refine pathWith_eq_star fun s => ?_
  unfold identifierName
  split
  · exact Name.noConfusion
  · exact Name.noConfusion

/-- The two ways to write a reference name the same column if its last segment is a name that
    keeps its letters without quotes. -/
theorem lastOf_escapedPath_quotedPath {reference last : String}
    (h : (Reference.segments reference).getLast? = some last) :
    (∃ name, lastOf? (escapedPath reference) = some name ∧
        lastOf? (quotedPath reference) = some name) ↔
      last ≠ "*" ∧ Reference.nameOf last ≠ "" ∧ Unfolded last := by
  -- only the last segment counts
  have hread (form : String → Name) :
      lastOf? (pathWith form reference) = (segmentName form last).denotes? := by
    rw [lastOf?, pathWith, List.getLast?_map, h]
    rfl
  rw [escapedPath, quotedPath, hread, hread, ← denotes_escaped_segment]
  constructor
  -- the tested column is in quotes, so it is its name; the selected one may be folded
  · rintro ⟨name, hescaped, hquoted⟩
    obtain ⟨-, -, rfl⟩ := denotes_quoted_segment.mp hquoted
    exact hescaped
  · intro hescaped
    obtain ⟨hstar, hne, -⟩ := denotes_escaped_segment.mp hescaped
    exact ⟨_, hescaped, denotes_quoted_segment.mpr ⟨hstar, hne, rfl⟩⟩

end Sql

namespace Predicate

/-! ### The user's rows of another table -/

/-- The text of a membership in another table, which names the column selected and the one
    tested. -/
theorem sql_userBelongsTo (column table select : String) :
    (userBelongsTo column table select).sql =
      Reference.quoted column ++ " IN (SELECT " ++ Reference.escaped select ++ " FROM " ++
        Reference.escaped table ++ " WHERE \"user_id\" = auth.uid())" := by
  have hselect : Reference.escaped select = columnsSql [select] := rfl
  have hopen : " IN (SELECT " = " IN " ++ "(SELECT " := rfl
  have hwhere : " WHERE \"user_id\" = auth.uid())" =
      "" ++ (" WHERE " ++ (isOwner Helper.userColumn).sql) ++ ")" := by
    decide +kernel
  rw [hselect, hopen, hwhere]
  show Reference.quoted column ++ " IN " ++ ("(SELECT " ++ columnsSql [select] ++ " FROM " ++
    Reference.escaped table ++ "" ++ (" WHERE " ++ (isOwner Helper.userColumn).sql) ++ ")") = _
  simp only [String.append_assoc]

/-- What that text is read as. -/
theorem expr_userBelongsTo (column table select : String) :
    (userBelongsTo column table select).expr =
      .inQuery (columnExpr (quotedPath column))
        (.select [columnExpr (escapedPath select)] (.table ⟨escapedPath table, none⟩)
          (some (.compare .eq (.column [.quoted "user_id"]) userExpr))) := by
  have hcolumn : columnExpr (quotedPath Helper.userColumn) = .column [.quoted "user_id"] := by
    rfl
  rw [← hcolumn]
  rfl

/-- **Membership in the same column.** A test that the user belongs to another table selects
    the tested column, as it was referred to, from the rows of the user there.  This is the
    table's own column of the same name if and only if the segments in front are read as the
    last names of the table, or there are none, and the last segment is a name that keeps
    its letters without quotes. -/
theorem userBelongsTo_testsOwnColumn (column table : String) :
    (userBelongsTo column table column).sql =
      Reference.quoted column ++ " IN (SELECT " ++ Reference.escaped column ++ " FROM " ++
        Reference.escaped table ++ " WHERE \"user_id\" = auth.uid())" ∧
    (userBelongsTo column table column).expr =
      .inQuery (columnExpr (quotedPath column))
        (.select [columnExpr (escapedPath column)] (.table ⟨escapedPath table, none⟩)
          (some (.compare .eq (.column [.quoted "user_id"]) userExpr))) ∧
    ((userBelongsTo column table column).expr.TestsOwnColumn ↔
      ((namesRead column).dropLast <:+ namesRead table ∧ none ∉ (namesRead column).dropLast) ∧
      ∃ last, (Reference.segments column).getLast? = some last ∧
        last ≠ "*" ∧ Reference.nameOf last ≠ "" ∧ Unfolded last) := by
  refine ⟨sql_userBelongsTo column table column, expr_userBelongsTo column table column, ?_⟩
  obtain ⟨last, hlast⟩ : ∃ last, (Reference.segments column).getLast? = some last :=
    ⟨_, List.getLast?_eq_some_getLast (Reference.segments_ne_nil column)⟩
  rw [expr_userBelongsTo]
  by_cases hall : Reference.segments column = ["*"]
  · -- all columns are no column of some name
    have hstar : last = "*" := by
      rw [hall] at hlast
      exact (Option.some.inj hlast).symm
    rw [columnExpr, if_pos (quotedPath_eq_star.mpr hall)]
    simp [Expr.TestsOwnColumn, hlast, hstar]
  -- both are proper columns, so the owner and the last names decide
  · rw [columnExpr, if_neg (mt quotedPath_eq_star.mp hall), columnExpr,
      if_neg (mt escapedPath_eq_star.mp hall)]
    have hname := lastOf_escapedPath_quotedPath hlast
    have hfound (P : String → Prop) :
        (∃ s, (Reference.segments column).getLast? = some s ∧ P s) ↔ P last := by
      simp [hlast]
    show TableName.Owns _ (escapedPath column) ∧ _ ↔ _
    rw [TableName.Owns, denoted_escapedPath, TableName.visiblePath, denoted_escapedPath, hname,
      hfound]

/-- The column of the outer row is selected: whoever has a row in the other table passes. -/
theorem userBelongsTo_outer_column :
    (userBelongsTo "posts.org_id" "org_members" "posts.org_id").sql =
        "\"posts\".\"org_id\" IN (SELECT posts.org_id FROM org_members " ++
          "WHERE \"user_id\" = auth.uid())" ∧
      denoted (escapedPath "posts.org_id") = denoted (quotedPath "posts.org_id") ∧
      ¬ (userBelongsTo "posts.org_id" "org_members" "posts.org_id").expr.TestsOwnColumn := by
  refine ⟨by decide +kernel, by decide +kernel, ?_⟩
  rintro ⟨⟨hsuffix, -⟩, -⟩
  exact absurd hsuffix (by decide +kernel)

end Predicate

end RowPolicy
