import RowPolicy.Proofs.Predicate.Expr
import RowPolicy.Proofs.Predicate.References

namespace RowPolicy

open Sql

/-!
# The columns of a predicate's expression

The columns in an expression that belong to the query around it are those outside the
queries within it.  In the expression of a predicate they are references that the predicate
makes, written in quotes:

* `Sql.Expr.columns` — the columns outside the queries within an expression;
* `Helper.columns_expr` — those of a helper, which are among its parameters;
* `Predicate.columns_expr` — those of a predicate.
-/

/-! ### Columns of an expression -/

namespace Sql.Expr

mutual

/-- The columns of an expression that do not stand in a query within it. -/
def columns : Expr → List (List Name)
  | column path => [path]
  | call _ args => columnsOf args
  | cast e _ | paren e | null _ e => e.columns
  | array items => columnsOf items
  | contains l r | .matches _ l r | compare _ l r => l.columns ++ r.columns
  | inList l items => l.columns ++ columnsOf items
  | inQuery l _ => l.columns
  | chain _ members => columnsOf members
  | constant _ | number .. | text _ | all | arrayOf _ | .exists _ | table _ | join ..
  | select .. => []

/-- Those of some expressions. -/
def columnsOf : List Expr → List (List Name)
  | [] => []
  | e :: es => e.columns ++ columnsOf es

end

end Sql.Expr

/-- References as they are written in quotes. -/
def quotedPaths (references : List String) : List (List Name) := references.map quotedPath

/-- References are quoted one by one. -/
theorem quotedPaths_append (rs ss : List String) :
    quotedPaths (rs ++ ss) = quotedPaths rs ++ quotedPaths ss := List.map_append

/-! ### Forms without recursion -/

/-- A reference is its own column, or all columns, which are none in particular. -/
theorem columns_columnExpr (reference : String) :
    (columnExpr (quotedPath reference)).columns ⊆ quotedPaths [reference] := by
  unfold columnExpr
  by_cases hall : quotedPath reference = [.star]
  · rw [if_pos hall, Expr.columns]
    exact List.nil_subset _
  · rw [if_neg hall, Expr.columns]
    exact List.Subset.refl _

/-- A column next to an expression without columns. -/
theorem columns_columnExpr_append_nil (reference : String) :
    (columnExpr (quotedPath reference)).columns ++ [] ⊆ quotedPaths [reference] := by
  rw [List.append_nil]
  exact columns_columnExpr reference

/-- A context value has no columns. -/
theorem Context.columns_expr (c : Context) : c.expr.columns = [] := by
  cases c <;> rfl

/-- Two lists of columns, each among its references, are together among all of them. -/
theorem append_subset_quotedPaths {xs ys : List (List Name)} {rs ss : List String}
    (hx : xs ⊆ quotedPaths rs) (hy : ys ⊆ quotedPaths ss) : xs ++ ys ⊆ quotedPaths (rs ++ ss) := by
  rw [quotedPaths_append]
  exact List.append_subset.mpr ⟨List.subset_append_of_subset_left _ hx,
    List.subset_append_of_subset_right _ hy⟩

/-- A membership in a list has the column tested and the columns of the items. -/
theorem columns_listExpr (column : String) (op : Membership) {items : List Expr}
    {references : List String} (h : Expr.columnsOf items ⊆ quotedPaths references) :
    (op.listExpr column items).columns ⊆ quotedPaths (column :: references) := by
  have hcolumn := columns_columnExpr column
  have hall := append_subset_quotedPaths hcolumn h
  cases op with
  | inside =>
    -- over an empty list the membership is false, and has no column at all
    cases items with
    | nil => exact List.nil_subset _
    | cons e es => exact hall
  | contains =>
    cases items with
    | nil => exact append_subset_quotedPaths hcolumn (List.nil_subset _)
    | cons e es => exact hall

/-- A membership in a query has the column tested; those of the query are its own. -/
theorem columns_queryExpr (column : String) (op : Membership) (query : Expr) :
    (op.queryExpr column query).columns ⊆ quotedPaths [column] := by
  cases op with
  | inside => exact columns_columnExpr column
  | contains => exact columns_columnExpr_append_nil column

/-- A group has the columns of its members. -/
theorem columns_groupExpr (op : Connective) (es : List Expr) :
    (op.groupExpr es).columns ⊆ Expr.columnsOf es := by
  rcases es with _ | ⟨e, _ | ⟨e', es⟩⟩
  · cases op <;> exact List.nil_subset _
  · cases op <;> exact List.subset_append_left _ _
  · cases op <;> exact List.Subset.refl _

/-! ### Helpers -/

/-- A text among the parameters of a helper counts as a reference. -/
theorem mem_paramReferencesOf {params : List (String × Operand)} {key s : String}
    (h : textParam? params key = some s) : s ∈ Operand.paramReferencesOf params := by
  obtain ⟨p, hfind, htext⟩ := Option.bind_eq_some_iff.mp h
  have hmem : p ∈ params := List.mem_of_find?_eq_some hfind
  -- the parameter found is a text, so its one reference is the text
  have hself : s ∈ Operand.paramReferences p := by
    obtain ⟨name, v⟩ := p
    cases v <;> cases htext
    exact List.mem_singleton_self _
  clear h hfind
  induction params with
  | nil => cases hmem
  | cons first params ih =>
    rw [Operand.paramReferencesOf, List.mem_append]
    rcases List.mem_cons.mp hmem with rfl | hlater
    · exact .inl hself
    · exact .inr (ih hlater)

/-- The columns of a helper are among its parameters: those of its own form, if it has one,
    else those of its arguments. -/
theorem Helper.columns_expr (name : String) {params : List (String × Operand)} {args : List Expr}
    (h : Expr.columnsOf args ⊆ quotedPaths (Operand.paramReferencesOf params)) :
    (Helper.expr name params args).columns ⊆ quotedPaths (Operand.paramReferencesOf params) := by
  rw [Helper.expr]
  obtain ⟨-, hknown⟩ | ⟨-, -, hknown⟩ | ⟨table, role, -, -, hknown⟩ |
    ⟨table, foreignKey, localKey, -, hlocal, -, hknown⟩ := Helper.known_cases name params
  · rw [hknown]
    exact h
  · rw [hknown]
    exact List.nil_subset _
  · rw [hknown]
    exact List.nil_subset _
  · rw [hknown]
    -- of the three names only the key of the row stands outside the query
    refine List.Subset.trans (columns_columnExpr localKey) (List.map_subset _ fun s hs => ?_)
    rw [List.mem_singleton.mp hs]
    exact mem_paramReferencesOf hlocal

/-! ### Predicates and operands -/

mutual

/-- The columns of an operand are among its references. -/
theorem Operand.columns_expr :
    (v : Operand) → v.expr.columns ⊆ quotedPaths v.references
  | .predicate p => p.columns_expr
  | .array items => Operand.columnsOf_exprs items
  | .null | .bool _ | .int _ | .text _ | .instant _ | .raw _ => List.nil_subset _
  | .float x => by
    -- a number is a literal, in a cast or not
    have hnone : (floatExpr x).columns = [] := by
      unfold floatExpr
      split
      · rfl
      split
      · rfl
      · rfl
    rw [Operand.expr, hnone]
    exact List.nil_subset _

theorem Operand.columnsOf_exprs :
    (vs : List Operand) → Expr.columnsOf (Operand.exprs vs) ⊆ quotedPaths (Operand.referencesOf vs)
  | [] => List.nil_subset _
  | v :: vs => append_subset_quotedPaths v.columns_expr (Operand.columnsOf_exprs vs)

theorem Operand.columnsOf_paramExprs :
    (ps : List (String × Operand)) →
      Expr.columnsOf (Operand.paramExprs ps) ⊆ quotedPaths (Operand.paramReferencesOf ps)
  | [] => List.nil_subset _
  | p :: ps =>
    append_subset_quotedPaths (Operand.columns_paramExpr p) (Operand.columnsOf_paramExprs ps)

theorem Operand.columns_paramExpr :
    (p : String × Operand) →
      (Operand.paramExpr p).columns ⊆ quotedPaths (Operand.paramReferences p)
  | (_, .text _) => List.nil_subset _
  | (_, .predicate p) => p.columns_expr
  | (_, .array items) => Operand.columnsOf_exprs items
  | (_, .null) | (_, .bool _) | (_, .int _) | (_, .instant _) | (_, .raw _) => List.nil_subset _
  | (_, .float x) => Operand.columns_expr (.float x)

/-- The columns of a membership are the one tested and those of its source. -/
theorem Source.columns_expr (column : String) (op : Membership) :
    (source : Source) →
      (Source.expr column op source).columns ⊆ quotedPaths (column :: source.references)
  | .values items => columns_listExpr column op (Operand.columnsOf_exprs items)
  | .subquery q => columns_queryExpr column op q.expr

/-- The columns of an argument are among its references. -/
theorem Argument.columns_expr :
    (a : Argument) → a.expr.columns ⊆ quotedPaths a.references
  | .column reference => columns_columnExpr reference
  | .predicate p => p.columns_expr

theorem Argument.columnsOf_exprs :
    (as : List Argument) →
      Expr.columnsOf (Argument.exprs as) ⊆ quotedPaths (Argument.referencesOf as)
  | [] => List.nil_subset _
  | a :: as => append_subset_quotedPaths a.columns_expr (Argument.columnsOf_exprs as)

/-- The columns of a predicate's expression, outside the queries within it, are references
    that the predicate makes, in quotes. -/
theorem Predicate.columns_expr :
    (p : Predicate) → p.expr.columns ⊆ quotedPaths p.references
  | .compare column _ operand =>
    append_subset_quotedPaths (columns_columnExpr column) operand.columns_expr
  | .pattern column .. => columns_columnExpr_append_nil column
  | .member column op source => source.columns_expr column op
  | .null column _ => columns_columnExpr column
  | .group op members =>
    List.Subset.trans (columns_groupExpr op _) (Predicate.columnsOf_exprs members)
  | .helper name params => Helper.columns_expr name (Operand.columnsOf_paramExprs params)
  | .call _ args => Argument.columnsOf_exprs args
  | .context c => by
    rw [Predicate.expr, c.columns_expr]
    exact List.nil_subset _

theorem Predicate.columnsOf_exprs :
    (ps : List Predicate) →
      Expr.columnsOf (Predicate.exprs ps) ⊆ quotedPaths (Predicate.referencesOf ps)
  | [] => List.nil_subset _
  | p :: ps => append_subset_quotedPaths p.columns_expr (Predicate.columnsOf_exprs ps)

end

end RowPolicy
