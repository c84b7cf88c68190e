import RowPolicy.Proofs.Sql.Literal

namespace RowPolicy

open Sql

/-!
# Predicates as SQL expressions

The expression that a predicate is meant to be read as: each operator of the predicate is
the operator of the expression, and its parts are the operands.

* `Context.expr`, `Membership.listExpr`, `Connective.groupExpr`, `Helper.expr` — the forms
  without recursion;
* `Helper.known_cases` — which helpers have a form of their own;
* `Operand.expr`, `Predicate.expr`, `Subquery.expr` — the expression of each sort;
* `Operand.raws`, `Predicate.raws`, `Subquery.raws` — the texts that are taken over as they
  are.
-/

/-! ### Forms without recursion -/

/-- A column, or all columns. -/
def columnExpr (path : List Name) : Expr := if path = [.star] then .all else .column path

/-- A column is written as its path, and so is the star that stands for all columns. -/
theorem pieces_columnExpr (path : List Name) :
    (columnExpr path).pieces = pathPieces false path := by
  rw [columnExpr]
  by_cases hstar : path = [.star]
  · rw [if_pos hstar, hstar]
    rfl
  · rw [if_neg hstar]
    rfl

/-- The id of the authenticated user. -/
def userExpr : Expr := .call [.bare "auth", .bare "uid"] []

/-- The value of a context. -/
def Context.expr : Context → Expr
  | authUid => userExpr
  | currentUser => .constant "current_user"
  | setting key cast =>
    .cast (.call [.bare "current_setting"] [.text key, .constant "true"]) cast.sql

/-- Membership in a list. -/
def Membership.listExpr (column : String) : Membership → List Expr → Expr
  | inside, [] => .constant "FALSE"
  | inside, items => .inList (columnExpr (quotedPath column)) items
  | contains, [] => .contains (columnExpr (quotedPath column)) (.text "\x7b\x7d")
  | contains, items => .contains (columnExpr (quotedPath column)) (.array items)

/-- Membership in the rows of a query. -/
def Membership.queryExpr (column : String) : Membership → Expr → Expr
  | inside, query => .inQuery (columnExpr (quotedPath column)) query
  | contains, query => .contains (columnExpr (quotedPath column)) (.arrayOf query)

/-- The members of a group under its connective, in parentheses. -/
def Connective.groupExpr : Connective → List Expr → Expr
  | and, [] => .constant "TRUE"
  | or, [] => .constant "FALSE"
  | _, [e] => .paren e
  | op, members => .paren (.chain op members)

/-- A function applied to arguments. -/
def applyExpr (function : String) (args : List Expr) : Expr := .call (escapedPath function) args

/-- A table with its alias, if it has one. -/
def tableExpr (table : String) (aliasName : Option String) : TableName :=
  ⟨escapedPath table, aliasName.map identifierName⟩

/-- Selected columns; none stand for all. -/
def columnExprs (columns : List String) : List Expr :=
  if columns.isEmpty then [.all] else columns.map fun c => columnExpr (escapedPath c)

namespace Helper

/-- The test that a table of roles gives the user a role. -/
def roleExpr (table role : String) : Expr :=
  .exists (.select [.number false "1" none] (.table (tableExpr table none))
    (some (.chain .and
      [.compare .eq (.column [.bare "user_id"]) userExpr,
        .compare .eq (.column [.bare "role"]) (.text role)])))

/-- The test that a membership table links the row to the user. -/
def memberExpr (table foreignKey localKey : String) : Expr :=
  .inQuery (columnExpr (quotedPath localKey))
    (.select [columnExpr (escapedPath foreignKey)] (.table (tableExpr table none))
      (some (.compare .eq (columnExpr (quotedPath userColumn)) userExpr)))

/-- The expression of a helper whose name is known and whose parameters are all there. -/
def knownExpr? (name : String) (params : List (String × Operand)) : Option Expr :=
  if name = alwaysTrue then some (.constant "TRUE")
  else if name = hasRole then do
    let role ← textParam? params "role"
    let table ← textParam? params "table"
    return roleExpr table role
  else if name = isMemberOf then do
    let table ← textParam? params "join_table"
    let foreignKey ← textParam? params "foreign_key"
    let localKey ← textParam? params "local_key"
    return memberExpr table foreignKey localKey
  else none

/-- The expression of a helper, where `args` are those of its parameters. -/
def expr (name : String) (params : List (String × Operand)) (args : List Expr) : Expr :=
  (knownExpr? name params).getD (applyExpr name args)

/-- A helper has a form of its own if its name is known and its parameters are there; else it is
    a function applied to its arguments. -/
theorem known_cases (name : String) (params : List (String × Operand)) :
    (knownSql? name params = none ∧ knownExpr? name params = none) ∨
      (name = alwaysTrue ∧ knownSql? name params = some "TRUE" ∧
        knownExpr? name params = some (.constant "TRUE")) ∨
      (∃ table role, name = hasRole ∧ knownSql? name params = some (roleSql table role) ∧
        knownExpr? name params = some (roleExpr table role)) ∨
      ∃ table foreignKey localKey, name = isMemberOf ∧
        textParam? params "local_key" = some localKey ∧
        knownSql? name params = some (memberSql table foreignKey localKey) ∧
        knownExpr? name params = some (memberExpr table foreignKey localKey) := by
  unfold knownSql? knownExpr?
  split
  -- of the known helpers, each has a name of its own and the parameters it needs
  · rename_i hname
    exact .inr (.inl ⟨hname, rfl, rfl⟩)
  split
  · rename_i hname
    -- without one of the two texts the helper is written as a call
    cases textParam? params "role" with
    | none => exact .inl ⟨rfl, rfl⟩
    | some role =>
      cases textParam? params "table" with
      | none => exact .inl ⟨rfl, rfl⟩
      | some table => exact .inr (.inr (.inl ⟨table, role, hname, rfl, rfl⟩))
  split
  · rename_i hname
    -- and so it is without one of the three
    cases textParam? params "join_table" with
    | none => exact .inl ⟨rfl, rfl⟩
    | some table =>
      cases textParam? params "foreign_key" with
      | none => exact .inl ⟨rfl, rfl⟩
      | some foreignKey =>
        cases textParam? params "local_key" with
        | none => exact .inl ⟨rfl, rfl⟩
        | some localKey =>
          exact .inr (.inr (.inr ⟨table, foreignKey, localKey, hname, rfl, rfl, rfl⟩))
  · exact .inl ⟨rfl, rfl⟩

end Helper

/-! ### Predicates, operands and subqueries -/

mutual

/-- The expression of an operand.  Of SQL that is taken over as it is, only `now()` is
    read. -/
def Operand.expr : Operand → Expr
  | .null => .constant "NULL"
  | .bool b => .constant (if b then "TRUE" else "FALSE")
  | .int n => intExpr n.toInt
  | .float x => floatExpr x
  | .text s => .text s
  | .instant t => instantExpr t
  | .array items => .array (Operand.exprs items)
  | .raw _ => .call [.bare "now"] []
  | .predicate p => p.expr

/-- The expression of each operand. -/
def Operand.exprs : List Operand → List Expr
  | [] => []
  | v :: vs => v.expr :: Operand.exprs vs

/-- The expression of the operand of each parameter. -/
def Operand.paramExprs : List (String × Operand) → List Expr
  | [] => []
  | p :: ps => Operand.paramExpr p :: Operand.paramExprs ps

/-- The expression of the operand of a parameter. -/
def Operand.paramExpr : String × Operand → Expr
  | (_, v) => v.expr

/-- The expression of a membership in a source. -/
def Source.expr (column : String) (op : Membership) : Source → Expr
  | .values items => op.listExpr column (Operand.exprs items)
  | .subquery q => op.queryExpr column q.expr

/-- The expression of an argument. -/
def Argument.expr : Argument → Expr
  | .column reference => columnExpr (quotedPath reference)
  | .predicate p => p.expr

/-- The expression of each argument. -/
def Argument.exprs : List Argument → List Expr
  | [] => []
  | a :: as => a.expr :: Argument.exprs as

/-- The expression of a predicate. -/
def Predicate.expr : Predicate → Expr
  | .compare column op operand => .compare op (columnExpr (quotedPath column)) operand.expr
  | .pattern column op pattern => .matches op (columnExpr (quotedPath column)) (.text pattern)
  | .member column op source => Source.expr column op source
  | .null column test => .null test (columnExpr (quotedPath column))
  | .group op members => op.groupExpr (Predicate.exprs members)
  | .helper name params => Helper.expr name params (Operand.paramExprs params)
  | .call name args => applyExpr name (Argument.exprs args)
  | .context c => c.expr

/-- The expression of each predicate. -/
def Predicate.exprs : List Predicate → List Expr
  | [] => []
  | p :: ps => p.expr :: Predicate.exprs ps

/-- The source of a table with a join, if there is one. -/
def Join.source (t : TableName) : Option Join → Expr
  | none => .table t
  | some j => Join.expr t j

/-- The source of a table with a join. -/
def Join.expr (t : TableName) : Join → Expr
  | ⟨kind, table, aliasName, on⟩ => .join kind t (tableExpr table aliasName) on.expr

/-- The condition of a filter, if there is one. -/
def Predicate.filterExpr : Option Predicate → Option Expr
  | none => none
  | some p => some p.expr

/-- The query of a subquery. -/
def Subquery.expr : Subquery → Expr
  | ⟨table, aliasName, columns, join, filter⟩ =>
    .select (columnExprs columns) (Join.source (tableExpr table aliasName) join)
      (Predicate.filterExpr filter)

end

/-! ### Texts that are taken over -/

mutual

/-- The texts in an operand that are taken over as they are. -/
def Operand.raws : Operand → List String
  | .array items => Operand.rawsOf items
  | .raw sql => [sql]
  | .predicate p => p.raws
  | _ => []

/-- Those in some operands. -/
def Operand.rawsOf : List Operand → List String
  | [] => []
  | v :: vs => v.raws ++ Operand.rawsOf vs

/-- Those in some parameters. -/
def Operand.paramRawsOf : List (String × Operand) → List String
  | [] => []
  | p :: ps => Operand.paramRaws p ++ Operand.paramRawsOf ps

/-- Those in a parameter. -/
def Operand.paramRaws : String × Operand → List String
  | (_, v) => v.raws

/-- Those in a source. -/
def Source.raws : Source → List String
  | .values items => Operand.rawsOf items
  | .subquery q => q.raws

/-- Those in an argument. -/
def Argument.raws : Argument → List String
  | .column _ => []
  | .predicate p => p.raws

/-- Those in some arguments. -/
def Argument.rawsOf : List Argument → List String
  | [] => []
  | a :: as => a.raws ++ Argument.rawsOf as

/-- The texts in a predicate that are taken over as they are. -/
def Predicate.raws : Predicate → List String
  | .compare _ _ operand => operand.raws
  | .member _ _ source => source.raws
  | .group _ members => Predicate.rawsOf members
  | .helper _ params => Operand.paramRawsOf params
  | .call _ args => Argument.rawsOf args
  | _ => []

/-- Those in some predicates. -/
def Predicate.rawsOf : List Predicate → List String
  | [] => []
  | p :: ps => p.raws ++ Predicate.rawsOf ps

/-- Those in a join, if there is one. -/
def Join.rawsOf : Option Join → List String
  | none => []
  | some j => j.raws

/-- Those in a join. -/
def Join.raws : Join → List String
  | ⟨_, _, _, on⟩ => on.raws

/-- Those in a filter, if there is one. -/
def Predicate.filterRaws : Option Predicate → List String
  | none => []
  | some p => p.raws

/-- The texts in a subquery that are taken over as they are. -/
def Subquery.raws : Subquery → List String
  | ⟨_, _, _, join, filter⟩ => Join.rawsOf join ++ Predicate.filterRaws filter

end

/-- The only SQL that the ready-made predicates take over as it is. -/
def rawNow : String := "now()"

end RowPolicy
