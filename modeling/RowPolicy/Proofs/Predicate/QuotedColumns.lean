import RowPolicy.Proofs.Predicate.Columns
import RowPolicy.Proofs.Predicate.Tokens
import RowPolicy.Proofs.Reference.Segments
import RowPolicy.Proofs.Sql.Columns

namespace RowPolicy

open Sql Sql.Piece

/-!
# The columns in the text of a predicate

The text of a predicate drops the column of an empty list, and reads the parameters of a helper
by name.  What it quotes outside its subqueries can be read off it:

* `Predicate.quotedColumns` — the references that the text quotes outside its subqueries;
* `shows_list`, `shows_group`, `shows_helper`, ... — the forms without recursion, from their parts;
* `Subquery.isQuery_expr` — a subquery is passed over as a whole;
* `Predicate.shows_expr` — the columns of a predicate, by recursion on all sorts at once.
-/

/-! ### References in quotes -/

/-- The column of a membership in a list, where it is written. -/
def Membership.listColumns (column : String) : Membership → List Operand → List String
  | inside, [] => []
  | _, _ => [column]

/-- The columns of a helper: the key of the row if it looks up the user in a membership
    table, and those of its arguments, which are `args`, if it has no form of its own. -/
def Helper.quotedColumns (name : String) (params : List (String × Operand)) (args : List String) :
    List String :=
  if (knownSql? name params).isNone then args
  else if name = isMemberOf then (textParam? params "local_key").toList
  else []

mutual

/-- The references that the text of an operand quotes outside its subqueries. -/
def Operand.quotedColumns : Operand → List String
  | .predicate p => p.quotedColumns
  | .array items => Operand.quotedColumnsOf items
  | _ => []

/-- Those of some operands. -/
def Operand.quotedColumnsOf : List Operand → List String
  | [] => []
  | v :: vs => v.quotedColumns ++ Operand.quotedColumnsOf vs

/-- Those of some parameters. -/
def Operand.paramQuotedColumnsOf : List (String × Operand) → List String
  | [] => []
  | p :: ps => Operand.paramQuotedColumns p ++ Operand.paramQuotedColumnsOf ps

/-- Those of a parameter. -/
def Operand.paramQuotedColumns : String × Operand → List String
  | (_, v) => v.quotedColumns

/-- Those of a membership in a source. -/
def Source.quotedColumns (column : String) (op : Membership) : Source → List String
  | .values items => op.listColumns column items ++ Operand.quotedColumnsOf items
  | .subquery _ => [column]

/-- Those of an argument. -/
def Argument.quotedColumns : Argument → List String
  | .column reference => [reference]
  | .predicate p => p.quotedColumns

/-- Those of some arguments. -/
def Argument.quotedColumnsOf : List Argument → List String
  | [] => []
  | a :: as => a.quotedColumns ++ Argument.quotedColumnsOf as

/-- The references that the text of a predicate quotes outside its subqueries, from left to
    right. -/
def Predicate.quotedColumns : Predicate → List String
  | .compare column _ operand => column :: operand.quotedColumns
  | .pattern column .. => [column]
  | .member column op source => Source.quotedColumns column op source
  | .null column _ => [column]
  | .group _ members => Predicate.quotedColumnsOf members
  | .helper name params => Helper.quotedColumns name params (Operand.paramQuotedColumnsOf params)
  | .call _ args => Argument.quotedColumnsOf args
  | .context _ => []

/-- Those of some predicates. -/
def Predicate.quotedColumnsOf : List Predicate → List String
  | [] => []
  | p :: ps => p.quotedColumns ++ Predicate.quotedColumnsOf ps

end

/-! ### Forms without recursion -/

/-- A path has a name, as a reference has a segment. -/
theorem pathWith_ne_nil (form : String → Name) (reference : String) :
    pathWith form reference ≠ [] := by
  simp [pathWith, Reference.segments_ne_nil]

/-- What is written in quotes has its names in quotes. -/
theorem inQuotes_quotedPath (reference : String) : ∀ n ∈ quotedPath reference, n.InQuotes := by
  intro n hn
  obtain ⟨segment, -, rfl⟩ := List.mem_map.mp hn
  -- `*` is neither, and any other segment is quoted already or quoted now
  by_cases hstar : segment = "*"
  · rw [hstar, segmentName_star]
    exact inQuotes_star
  · cases hname : Reference.quotedName? segment with
    | some name =>
      rw [segmentName_of_quotedName hname]
      exact inQuotes_quoted name
    | none =>
      rw [segmentName_of_none hstar hname]
      exact inQuotes_quoted segment

/-- A reference in quotes shows itself. -/
theorem shows_columnExpr (reference : String) :
    Shows (columnExpr (quotedPath reference)).pieces (quotedPaths [reference]) := by
  rw [pieces_columnExpr]
  exact shows_column (pathWith_ne_nil _ _) (inQuotes_quotedPath reference)

/-- A function applied to arguments, wherever it is. -/
theorem shows_callExpr {function : List Name} (hne : function ≠ []) {args : List Expr}
    {paths : List (List Name)} (h : ShowsEach (Expr.piecesOf args) paths) :
    Shows (Expr.call function args).pieces paths := by
  rw [Expr.pieces, ← h.columnsWithin_listed .round]
  exact shows_call hne _

/-- A context value shows no columns. -/
theorem shows_context (c : Context) : Shows c.expr.pieces [] := by
  cases c with
  | authUid => exact shows_callExpr (List.cons_ne_nil _ _) .nil
  | currentUser => exact shows_atom (plain_word _) (by decide)
  | setting key cast =>
    have hargs : ShowsEach (Expr.piecesOf [.text key, .constant "true"]) [] :=
      .cons (shows_atom (plain_text key) Atom.noConfusion)
        (.cons (shows_atom (plain_word "true") (by decide)) .nil)
    have hcall := shows_callExpr (List.cons_ne_nil (.bare "current_setting") []) hargs
    have hcast : ∀ a ∈ [Atom.op "::", .word cast.sql], a.Plain := by cases cast <;> decide
    exact hcall.append_plain hcast

/-- A number shows no columns. -/
theorem shows_number (negative : Bool) {whole : String} (h : Expr.IsDigits whole)
    (fraction : Option String) : Shows (Expr.number negative whole fraction).pieces [] := by
  have hselect : whole ≠ "SELECT" := by
    rintro rfl
    exact absurd (h.2 'S' (by decide)) (by decide)
  -- the digits are words like the names of a path
  have hdigits : Shows (word whole :: fraction.toList.flatMap fun f =>
      [.atom .dot, .atom (.label f)]) [] := by
    cases fraction with
    | none => exact shows_bare hselect []
    | some f => exact shows_bare hselect [.bare f]
  cases negative with
  | false => exact hdigits
  | true => exact hdigits.cons_plain (a := .op "-") (by decide) (by decide)

/-- Nor does a float, in digits or in quotes. -/
theorem shows_float (x : Float) : Shows (floatExpr x).pieces [] := by
  unfold floatExpr
  split
  · exact shows_atom (plain_text _) Atom.noConfusion
  split
  · exact shows_atom (plain_text _) Atom.noConfusion
  · exact shows_number _ (isDigits_digitGroups _).1 _

/-- Nor does an instant, with its type. -/
theorem shows_instant (t : Instant) : Shows (instantExpr t).pieces [] := by
  have hcast : ∀ a ∈ [Atom.op "::", .word "TIMESTAMP"], a.Plain := by decide
  exact (shows_atom (plain_text t.text) Atom.noConfusion).append_plain hcast

/-- An array shows the columns of its items. -/
theorem shows_arrayExpr {items : List Expr} {paths : List (List Name)}
    (h : ShowsEach (Expr.piecesOf items) paths) : Shows (Expr.array items).pieces paths := by
  rw [Expr.pieces, ← h.columnsWithin_listed .square]
  exact shows_word_brackets (by decide) _ _

/-- A membership in a list shows the column tested, but for an empty list behind `IN`, and the
    columns of the items. -/
theorem shows_list (column : String) (op : Membership) {items : List Operand}
    (h : ShowsEach (Expr.piecesOf (Operand.exprs items))
      (quotedPaths (Operand.quotedColumnsOf items))) :
    Shows (op.listExpr column (Operand.exprs items)).pieces
      (quotedPaths (op.listColumns column items ++ Operand.quotedColumnsOf items)) := by
  have hcolumn := shows_columnExpr column
  -- over an empty list only the form with the operator names the column
  cases items with
  | nil =>
    cases op with
    | inside => exact shows_atom (plain_word _) (by decide)
    | contains =>
      exact hcolumn.separated (a := .op "@>") (by decide)
        (shows_atom (plain_text _) Atom.noConfusion)
  | cons v vs =>
    rw [quotedPaths_append]
    cases op with
    | inside =>
      rw [← h.columnsWithin_listed .round]
      exact hcolumn.append_brackets (plain_word "IN") _ _
    | contains => exact hcolumn.separated (a := .op "@>") (by decide) (shows_arrayExpr h)

/-- A membership in a query shows the column tested, and nothing of the query. -/
theorem shows_query (column : String) (op : Membership) {query : Expr}
    (h : isQuery query.pieces = true) :
    Shows (op.queryExpr column query).pieces (quotedPaths [column]) := by
  have hcolumn := shows_columnExpr column
  have hquery := columnsWithin_query h .round
  -- the brackets of the query are passed over whole
  cases op with
  | inside =>
    have hall := hcolumn.append_brackets (plain_word "IN") .round query.pieces
    rwa [hquery, List.append_nil] at hall
  | contains =>
    have hall := hcolumn.separated (a := .op "@>") (by decide)
      (shows_word_brackets (w := "ARRAY") (by decide) .round query.pieces)
    rwa [hquery, List.append_nil] at hall

/-- A group shows the columns of its members. -/
theorem shows_group (op : Connective) {es : List Expr} {paths : List (List Name)}
    (h : ShowsEach (Expr.piecesOf es) paths) : Shows (op.groupExpr es).pieces paths := by
  -- members stand in parentheses, whether there is a connective between them or not
  have hparen {content : List Piece} (hcontent : Shows content paths) :
      Shows [.brackets .round content] paths := by
    rw [← columnsWithin_of_shows hcontent .round]
    exact shows_brackets _ _
  cases es with
  | nil =>
    cases h
    cases op <;> exact shows_atom (plain_word _) (by decide)
  | cons e es =>
    have hmembers := h.shows_intercalate (List.cons_ne_nil _ _) (plain_word op.sql)
    cases es with
    | nil =>
      rw [Expr.piecesOf, Expr.piecesOf, List.intercalate_singleton] at hmembers
      cases op <;> exact hparen hmembers
    | cons e' es => cases op <;> exact hparen hmembers

/-! ### Queries -/

/-- A query begins with what it selects. -/
theorem isQuery_select {e : Expr} {a : Atom} {ps : List Piece} (h : e.pieces = .atom a :: ps)
    (hdot : a ≠ .dot) (es : List Expr) (source : Expr) (filter : Option Expr) :
    isQuery (Expr.select (e :: es) source filter).pieces = true := by
  have hselected : ∃ rest, listed (Expr.piecesOf (e :: es)) = .atom a :: rest := by
    cases es with
    | nil => exact ⟨ps, by simp [listed, Expr.piecesOf, h]⟩
    | cons e' es => simp [listed, Expr.piecesOf, List.intercalate_cons_cons, h]
  obtain ⟨rest, hrest⟩ := hselected
  rw [Expr.pieces, hrest]
  simp [word, isQuery, hdot]

/-- A query that selects a column is passed over. -/
theorem isQuery_selectColumn (reference : String) (es : List Expr) (source : Expr)
    (filter : Option Expr) :
    isQuery (Expr.select (columnExpr (escapedPath reference) :: es) source filter).pieces =
      true := by
  obtain ⟨n, names, hpath⟩ := List.exists_cons_of_ne_nil (pathWith_ne_nil identifierName reference)
  have hpieces : (columnExpr (escapedPath reference)).pieces =
      .atom (n.atom false) :: names.flatMap behindDot := by
    rw [pieces_columnExpr, escapedPath, hpath, pathPieces_cons]
  exact isQuery_select hpieces (by cases n <;> exact Atom.noConfusion) es source filter

/-- The text of a subquery is passed over. -/
theorem Subquery.isQuery_expr (q : Subquery) : isQuery q.expr.pieces = true := by
  obtain ⟨table, aliasName, columns, join, filter⟩ := q
  rw [Subquery.expr, columnExprs]
  cases columns with
  | nil => exact isQuery_select (e := .all) rfl Atom.noConfusion [] _ _
  | cons c columns => exact isQuery_selectColumn c _ _ _

/-! ### Helpers -/

/-- The test for a role shows no columns, as its query is passed over. -/
theorem shows_role (table role : String) : Shows (Helper.roleExpr table role).pieces [] := by
  have hquery : isQuery (Expr.select [.number false "1" none] (.table (tableExpr table none))
      (some (.chain .and
        [.compare .eq (.column [.bare "user_id"]) userExpr,
          .compare .eq (.column [.bare "role"]) (.text role)]))).pieces = true :=
    isQuery_select (a := .word "1") rfl Atom.noConfusion _ _ _
  rw [Helper.roleExpr, Expr.pieces, ← columnsWithin_query hquery .round]
  exact shows_word_brackets (by decide) _ _

/-- The test for a member shows the key of the row, in front of its query. -/
theorem shows_member (table foreignKey localKey : String) :
    Shows (Helper.memberExpr table foreignKey localKey).pieces (quotedPaths [localKey]) := by
  have hall := (shows_columnExpr localKey).append_brackets (plain_word "IN") .round
    (Expr.select [columnExpr (escapedPath foreignKey)] (.table (tableExpr table none))
      (some (.compare .eq (columnExpr (quotedPath Helper.userColumn)) userExpr))).pieces
  rwa [columnsWithin_query (isQuery_selectColumn foreignKey _ _ _), List.append_nil] at hall

/-- A helper shows the columns it is written with outside queries. -/
theorem shows_helper (name : String) (params : List (String × Operand)) {args : List Expr}
    {references : List String} (h : ShowsEach (Expr.piecesOf args) (quotedPaths references)) :
    Shows (Helper.expr name params args).pieces
      (quotedPaths (Helper.quotedColumns name params references)) := by
  rw [Helper.expr, Helper.quotedColumns]
  -- a helper that is not known is a call, which shows its arguments
  obtain ⟨hsql, hexpr⟩ | ⟨rfl, hsql, hexpr⟩ | ⟨table, role, rfl, hsql, hexpr⟩ |
    ⟨table, foreignKey, localKey, rfl, hlocal, hsql, hexpr⟩ := Helper.known_cases name params
  · rw [hsql, hexpr]
    exact shows_callExpr (pathWith_ne_nil identifierName name) h
  · rw [hsql, hexpr]
    exact shows_atom (plain_word "TRUE") (by decide)
  · rw [hsql, hexpr]
    exact shows_role table role
  · rw [hsql, hexpr, hlocal]
    exact shows_member table foreignKey localKey

/-! ### Predicates and operands -/

mutual

/-- An operand shows the columns in it. -/
theorem Operand.shows_expr : (v : Operand) → Shows v.expr.pieces (quotedPaths v.quotedColumns)
  | .predicate p => p.shows_expr
  | .array items => shows_arrayExpr (Operand.shows_exprs items)
  | .null => shows_atom (plain_word "NULL") (by decide)
  | .bool b => by cases b <;> exact shows_atom (plain_word _) (by decide)
  | .int n => shows_number _ (isDigits_toDigits _) none
  | .float x => shows_float x
  | .text s => shows_atom (plain_text s) Atom.noConfusion
  | .instant t => shows_instant t
  | .raw _ => shows_callExpr (List.cons_ne_nil _ _) .nil

theorem Operand.shows_exprs :
    (vs : List Operand) →
      ShowsEach (Expr.piecesOf (Operand.exprs vs)) (quotedPaths (Operand.quotedColumnsOf vs))
  | [] => .nil
  | v :: vs => by
    rw [Operand.quotedColumnsOf, quotedPaths_append]
    exact .cons v.shows_expr (Operand.shows_exprs vs)

theorem Operand.shows_paramExprs :
    (ps : List (String × Operand)) →
      ShowsEach (Expr.piecesOf (Operand.paramExprs ps))
        (quotedPaths (Operand.paramQuotedColumnsOf ps))
  | [] => .nil
  | p :: ps => by
    rw [Operand.paramQuotedColumnsOf, quotedPaths_append]
    exact .cons (Operand.shows_paramExpr p) (Operand.shows_paramExprs ps)

theorem Operand.shows_paramExpr :
    (p : String × Operand) →
      Shows (Operand.paramExpr p).pieces (quotedPaths (Operand.paramQuotedColumns p))
  | (_, v) => v.shows_expr

/-- A membership shows the columns of its source as well. -/
theorem Source.shows_expr (column : String) (op : Membership) :
    (source : Source) →
      Shows (Source.expr column op source).pieces
        (quotedPaths (Source.quotedColumns column op source))
  | .values items => shows_list column op (Operand.shows_exprs items)
  | .subquery q => shows_query column op q.isQuery_expr

/-- An argument is a column, or shows what its predicate does. -/
theorem Argument.shows_expr : (a : Argument) → Shows a.expr.pieces (quotedPaths a.quotedColumns)
  | .column reference => shows_columnExpr reference
  | .predicate p => p.shows_expr

theorem Argument.shows_exprs :
    (as : List Argument) →
      ShowsEach (Expr.piecesOf (Argument.exprs as)) (quotedPaths (Argument.quotedColumnsOf as))
  | [] => .nil
  | a :: as => by
    rw [Argument.quotedColumnsOf, quotedPaths_append]
    exact .cons a.shows_expr (Argument.shows_exprs as)

/-- The columns that can be read off the expression of a predicate are the references that its
    text quotes, in the same order. -/
theorem Predicate.shows_expr :
    (p : Predicate) → Shows p.expr.pieces (quotedPaths p.quotedColumns)
  | .compare column op operand => by
    have hop : (Atom.op op.sql).Plain := by cases op <;> decide
    exact (shows_columnExpr column).separated hop operand.shows_expr
  | .pattern column op pattern =>
    (shows_columnExpr column).separated (plain_word op.sql)
      (shows_atom (plain_text pattern) Atom.noConfusion)
  | .member column op source => source.shows_expr column op
  | .null column test => by
    have htest : ∀ a ∈ (nullWords test).map Atom.word, a.Plain := by cases test <;> decide
    have hall := (shows_columnExpr column).append_plain htest
    rwa [List.map_map] at hall
  | .group op members => shows_group op (Predicate.shows_exprs members)
  | .helper name params => shows_helper name params (Operand.shows_paramExprs params)
  | .call name args => shows_callExpr (pathWith_ne_nil _ name) (Argument.shows_exprs args)
  | .context c => shows_context c

theorem Predicate.shows_exprs :
    (ps : List Predicate) →
      ShowsEach (Expr.piecesOf (Predicate.exprs ps)) (quotedPaths (Predicate.quotedColumnsOf ps))
  | [] => .nil
  | p :: ps => by
    rw [Predicate.quotedColumnsOf, quotedPaths_append]
    exact .cons p.shows_expr (Predicate.shows_exprs ps)

end

end RowPolicy
