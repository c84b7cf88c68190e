import RowPolicy.Proofs.Predicate.Expr

namespace RowPolicy

open Sql Sql.Piece

/-!
# Predicates are written as their expressions

The text of a predicate consists of the tokens of its expression, whatever strings it
holds, as long as the only SQL it takes over is `now()`.

* `spells_list`, `spells_group`, `spells_helper`, ... — the forms without recursion,
  from the tokens of their parts;
* `Predicate.spells_sql` — the text of a predicate, by recursion on all sorts at once.
-/

/-! ### Glue -/

/-- Texts that contribute the tokens of expressions. -/
abbrev SpellExprs (texts : List String) (es : List Expr) : Prop :=
  List.Forall₂ Spells texts ((Expr.piecesOf es).map tokensOf)

/-- Texts that spell expressions spell them in a list, between commas. -/
theorem spells_listed {texts : List String} {es : List Expr} (h : SpellExprs texts es) :
    Spells (joined ", " texts) (tokensOf (listed (Expr.piecesOf es))) := by
  have hsep : SpellsAll ", " [.atom .comma] := rfl
  rw [listed, tokensOf_intercalate]
  exact Spells.joined hsep (parted_of_head rfl) h

/-- A text that spells a path spells the column of that path. -/
theorem spells_columnExpr {s : String} {path : List Name}
    (h : Spells s (tokensOf (pathPieces false path))) :
    Spells s (tokensOf (columnExpr path).pieces) := by
  unfold columnExpr
  split
  · rename_i hpath
    rw [hpath] at h
    exact h
  · exact h

/-- A reference in quotes spells its column. -/
theorem spells_column (reference : String) :
    Spells (Reference.quoted reference)
      (tokensOf (columnExpr (quotedPath reference)).pieces) :=
  spells_columnExpr (spells_quoted reference)

/-! ### Forms without recursion -/

/-- A context value spells its call. -/
theorem spells_context (c : Context) : Spells c.sql (tokensOf c.expr.pieces) := by
  cases c with
  | authUid => exact ⟨_, _, _, rfl, rfl, by simp, rfl⟩
  | currentUser => exact ⟨_, _, _, rfl, rfl, by simp, rfl⟩
  | setting key cast =>
    have hopen : SpellsAll "current_setting("
        [.atom (.word "current_setting"), .edge (.opening .round)] := rfl
    have hclose : Spells (", true)::" ++ cast.sql)
        [.atom .comma, .atom (.word "true"), .edge (.closing .round), .atom (.op "::"),
          .atom (.word cast.sql)] := by
      cases cast <;> exact ⟨_, _, _, rfl, rfl, by simp, rfl⟩
    -- the comma ends the quoted key
    have hparted : Parted (", true)::" ++ cast.sql) :=
      (parted_of_head (s := ", true)::") rfl).append cast.sql
    have hall := hopen.append_spells ((spells_quoteText key).append hclose hparted)
    rw [← String.append_assoc, ← String.append_assoc] at hall
    exact hall

/-- An array spells its items in brackets. -/
theorem spells_array {texts : List String} {es : List Expr} (h : SpellExprs texts es) :
    Spells (arrayLiteral texts) (tokensOf (Expr.array es).pieces) := by
  have hopen : SpellsAll "ARRAY[" [.atom (.word "ARRAY"), .edge (.opening .square)] := rfl
  have hclose : SpellsAll "]" [.edge (.closing .square)] := rfl
  have hall := (hopen.append_spells (spells_listed h)).append_all hclose (parted_of_head rfl)
  simpa [arrayLiteral, Expr.pieces, word, tokens] using hall.spells

/-- Items in parentheses behind a piece that ends in the opening one. -/
theorem spells_parenthesised {a : String} {ts : List Token} {texts : List String} {es : List Expr}
    (ha : SpellsAll a (ts ++ [.edge (.opening .round)])) (h : SpellExprs texts es) :
    Spells (a ++ joined ", " texts ++ ")")
      (ts ++ (Piece.brackets .round (listed (Expr.piecesOf es))).tokens) := by
  have hclose : SpellsAll ")" [.edge (.closing .round)] := rfl
  have hall := (ha.append_spells (spells_listed h)).append_all hclose (parted_of_head rfl)
  simpa [tokens] using hall.spells

/-- A call spells its function, and its arguments in brackets. -/
theorem spells_apply (function : String) {texts : List String} {es : List Expr}
    (h : SpellExprs texts es) :
    Spells (applySql function texts) (tokensOf (applyExpr function es).pieces) := by
  have hopen : SpellsAll "(" [.edge (.opening .round)] := rfl
  have hfront := (spells_escaped function).append_all hopen (parted_of_head rfl)
  simpa [applySql, applyExpr, Expr.pieces] using spells_parenthesised hfront h

/-- A membership in a list spells its form, of which an empty list has its own. -/
theorem spells_list (column : String) (op : Membership) {texts : List String} {es : List Expr}
    (h : SpellExprs texts es) :
    Spells (op.listSql column texts) (tokensOf (op.listExpr column es).pieces) := by
  have hcolumn := spells_column column
  cases es with
  | nil =>
    cases h
    cases op with
    | inside => exact spells_plain (s := "FALSE") false (by decide)
    | contains =>
      -- no items: the empty array is written as a string
      have hempty : Spells " @> '\x7b\x7d'" [.atom (.op "@>"), .atom (.text "\x7b\x7d")] :=
        ⟨_, .closed '\'' ['\x7b', '\x7d'], _, rfl, rfl, by simp, rfl⟩
      simpa [Membership.listSql, Membership.listExpr, Expr.pieces, Piece.op, tokens] using
        hcolumn.append hempty (parted_of_head rfl)
  | cons e es =>
    cases h with
    | @cons text _ texts _ hhead htail =>
      have hitems : SpellExprs (text :: texts) (e :: es) := .cons hhead htail
      cases op with
      | inside =>
        have hin : SpellsAll " IN (" [.atom (.word "IN"), .edge (.opening .round)] := rfl
        have hfront : SpellsAll (Reference.quoted column ++ " IN (")
            (tokensOf (columnExpr (quotedPath column)).pieces ++ [.atom (.word "IN")] ++
              [.edge (.opening .round)]) := by
          simpa using hcolumn.append_all hin (parted_of_head rfl)
        simpa [Membership.listSql, Membership.listExpr, Expr.pieces, word, tokens] using
          spells_parenthesised hfront hitems
      | contains =>
        have hop : SpellsAll " @> " [.atom (.op "@>")] := rfl
        have hall := (hcolumn.append_all hop (parted_of_head rfl)).append_spells
          (spells_array hitems)
        simpa [Membership.listSql, Membership.listExpr, Expr.pieces, Piece.op, tokens] using hall

/-- A membership in a query spells the column, the operator and the query. -/
theorem spells_query (column : String) (op : Membership) {text : String} {query : Expr}
    (h : SpellsAll text (Piece.brackets .round query.pieces).tokens) (hparted : Parted text) :
    Spells (op.subquerySql column text) (tokensOf (op.queryExpr column query).pieces) := by
  have hcolumn := spells_column column
  cases op with
  -- the query stands in its own brackets, so a space is enough in front
  | inside =>
    have hin : SpellsAll " IN " [.atom (.word "IN")] := rfl
    have hall := (hcolumn.append_all hin (parted_of_head rfl)).append h
    simpa [Membership.subquerySql, Membership.queryExpr, Expr.pieces, word, tokens] using
      hall.spells
  | contains =>
    -- the word and the bracket may touch, so the query has to begin apart
    have hop : Spells " @> ARRAY" [.atom (.op "@>"), .atom (.word "ARRAY")] :=
      ⟨_, _, _, rfl, rfl, by simp, rfl⟩
    have hall := (hcolumn.append hop (parted_of_head rfl)).append_all h hparted
    simpa [Membership.subquerySql, Membership.queryExpr, Expr.pieces, word, Piece.op, tokens] using
      hall.spells

/-- A group spells its members with the connective between them, in brackets. -/
theorem spells_group (op : Connective) {texts : List String} {es : List Expr}
    (h : SpellExprs texts es) :
    Spells (op.groupSql texts) (tokensOf (op.groupExpr es).pieces) := by
  have hopen : SpellsAll "(" [.edge (.opening .round)] := rfl
  have hclose : SpellsAll ")" [.edge (.closing .round)] := rfl
  -- a group with members stands in parentheses
  have hparen {texts : List String} {e : Expr}
      (hmembers : Spells (joined (" " ++ op.sql ++ " ") texts) (tokensOf e.pieces)) :
      Spells ("(" ++ joined (" " ++ op.sql ++ " ") texts ++ ")")
        (tokensOf (Expr.paren e).pieces) := by
    have hall := (hopen.append_spells hmembers).append_all hclose (parted_of_head rfl)
    simpa [Expr.pieces, tokens] using hall.spells
  have hsep : SpellsAll (" " ++ op.sql ++ " ") [.atom (.word op.sql)] := by cases op <;> rfl
  have hparted : Parted (" " ++ op.sql ++ " ") := by cases op <;> exact parted_of_head rfl
  -- a chain needs two members, so shorter groups come first
  have hjoined := Spells.joined hsep hparted h
  cases es with
  | nil =>
    cases h
    cases op with
    | and => exact spells_plain (s := "TRUE") false (by decide)
    | or => exact spells_plain (s := "FALSE") false (by decide)
  | cons e es =>
    cases h with
    | @cons text _ texts _ hhead htail =>
      cases es with
      | nil =>
        cases htail
        have hsingle : Spells (joined (" " ++ op.sql ++ " ") [text]) (tokensOf e.pieces) := hhead
        cases op <;> exact hparen hsingle
      | cons e' es =>
        have hchain : Spells (joined (" " ++ op.sql ++ " ") (text :: texts))
            (tokensOf (Expr.chain op (e :: e' :: es)).pieces) := by
          rw [Expr.pieces, tokensOf_intercalate]
          exact hjoined
        cases op <;> exact hparen hchain

/-- A table spells its path, and its alias behind `AS`. -/
theorem spells_table (table : String) (aliasName : Option String) :
    Spells (tableSql table aliasName) (tokensOf (tableExpr table aliasName).pieces) := by
  cases aliasName with
  | none => simpa [tableSql, tableExpr, TableName.pieces] using spells_escaped table
  | some a =>
    have hall := (spells_escaped table).spaced (spells_escapeIdentifier false a)
    simpa [tableSql, tableExpr, TableName.pieces, tokens] using hall

/-- The columns of a query spell a list, or all columns. -/
theorem spells_columns (columns : List String) :
    Spells (columnsSql columns) (tokensOf (listed (Expr.piecesOf (columnExprs columns)))) := by
  unfold columnsSql columnExprs
  split
  · exact ⟨_, .op ['*'], _, rfl, rfl, by simp, rfl⟩
  · refine spells_listed ?_
    clear * -
    induction columns with
    | nil => exact .nil
    | cons c columns ih => exact .cons (spells_columnExpr (spells_escaped c)) ih

/-- The test for a role spells its query. -/
theorem spells_role (table role : String) :
    Spells (Helper.roleSql table role) (tokensOf (Helper.roleExpr table role).pieces) := by
  have hopen : SpellsAll "EXISTS (SELECT 1 FROM "
      [.atom (.word "EXISTS"), .edge (.opening .round), .atom (.word "SELECT"), .atom (.word "1"),
        .atom (.word "FROM")] := by decide +kernel
  have hwhere : SpellsAll " WHERE user_id = auth.uid() AND role = "
      ([.atom (.word "WHERE"), .atom (.word "user_id"), .atom (.op "=")] ++
        tokensOf userExpr.pieces ++
        [.atom (.word "AND"), .atom (.word "role"), .atom (.op "=")]) := by
    decide +kernel
  have hclose : SpellsAll ")" [.edge (.closing .round)] := rfl
  have hall := (((hopen.append_spells (spells_escaped table)).append_all hwhere
    (parted_of_head rfl)).append_spells (spells_quoteText role)).append_all hclose
    (parted_of_head rfl)
  -- the tokens in the order in which the parts of the text contribute them
  have htokens : tokensOf (Helper.roleExpr table role).pieces =
      [.atom (.word "EXISTS"), .edge (.opening .round), .atom (.word "SELECT"), .atom (.word "1"),
        .atom (.word "FROM")] ++ tokensOf (pathPieces false (escapedPath table)) ++
      ([.atom (.word "WHERE"), .atom (.word "user_id"), .atom (.op "=")] ++
        tokensOf userExpr.pieces ++ [.atom (.word "AND"), .atom (.word "role"), .atom (.op "=")]) ++
      [.atom (.text role)] ++ [.edge (.closing .round)] := by
    simp [Helper.roleExpr, Expr.pieces, Expr.piecesOf, Expr.filterPieces, listed,
      List.intercalate_cons_cons, TableName.pieces, tableExpr, pathPieces, Name.atom, tokens,
      Piece.word, Piece.op, Connective.sql, Comparison.sql]
  rw [htokens]
  exact hall.spells

/-- The test for a member spells its key and its query. -/
theorem spells_member (table foreignKey localKey : String) :
    Spells (Helper.memberSql table foreignKey localKey)
      (tokensOf (Helper.memberExpr table foreignKey localKey).pieces) := by
  -- the texts between the names, as they stand
  have hin : SpellsAll " IN (SELECT "
      [.atom (.word "IN"), .edge (.opening .round), .atom (.word "SELECT")] := rfl
  have hfrom : SpellsAll " FROM " [.atom (.word "FROM")] := rfl
  have hwhere : SpellsAll " WHERE " [.atom (.word "WHERE")] := rfl
  have hclose : SpellsAll " = auth.uid())"
      ([.atom (.op "=")] ++ tokensOf userExpr.pieces ++ [.edge (.closing .round)]) := by
    decide +kernel
  have hkeys := (((spells_column localKey).append_all hin (parted_of_head rfl)).append_spells
    (spells_columnExpr (spells_escaped foreignKey))).append_all hfrom (parted_of_head rfl)
  have hall := (((hkeys.append_spells (spells_escaped table)).append_all hwhere
    (parted_of_head rfl)).append_spells (spells_column Helper.userColumn)).append_all hclose
    (parted_of_head rfl)
  simpa [Helper.memberSql, Helper.memberExpr, Expr.pieces, Expr.piecesOf, Expr.filterPieces,
    listed, TableName.pieces, tableExpr, tokens, Piece.word, Piece.op, Comparison.sql] using
    hall.spells

/-- A helper spells the form that is known for it, or a call. -/
theorem spells_helper (name : String) (params : List (String × Operand)) {texts : List String}
    {es : List Expr} (h : SpellExprs texts es) :
    Spells (Helper.sql name params texts) (tokensOf (Helper.expr name params es).pieces) := by
  rw [Helper.sql, Helper.expr]
  obtain ⟨hsql, hexpr⟩ | ⟨-, hsql, hexpr⟩ | ⟨table, role, -, hsql, hexpr⟩ |
    ⟨table, foreignKey, localKey, -, -, hsql, hexpr⟩ := Helper.known_cases name params
  -- in each case the text and the expression are known together
  · rw [hsql, hexpr]
    exact spells_apply name h
  · rw [hsql, hexpr]
    exact spells_plain (s := "TRUE") false (by decide)
  · rw [hsql, hexpr]
    exact spells_role table role
  · rw [hsql, hexpr]
    exact spells_member table foreignKey localKey

/-! ### Predicates, operands and subqueries -/

mutual

/-- An operand spells its expression, if it takes over only the clock. -/
theorem Operand.spells_sql :
    (v : Operand) → (∀ s ∈ v.raws, s = rawNow) → Spells v.sql (tokensOf v.expr.pieces)
  | .null, _ => spells_plain (s := "NULL") false (by decide)
  | .bool b, _ => by
    cases b with
    | true => exact spells_plain (s := "TRUE") false (by decide)
    | false => exact spells_plain (s := "FALSE") false (by decide)
  | .int n, _ => spells_int n.toInt
  | .float x, _ => spells_float x
  | .text s, _ => spells_quoteText s
  | .instant t, _ => spells_instant t
  | .array items, h => spells_array (Operand.spells_sqls items h)
  | .raw sql, h => by
    -- the one text that is taken over is a call itself
    have hsql : sql = rawNow := h sql List.mem_cons_self
    subst hsql
    exact ⟨_, _, _, rfl, rfl, by simp, rfl⟩
  | .predicate p, h => p.spells_sql h

theorem Operand.spells_sqls :
    (vs : List Operand) → (∀ s ∈ Operand.rawsOf vs, s = rawNow) →
      SpellExprs (Operand.sqls vs) (Operand.exprs vs)
  | [], _ => .nil
  | v :: vs, h => by
    rw [Operand.rawsOf, List.forall_mem_append] at h
    exact .cons (v.spells_sql h.1) (Operand.spells_sqls vs h.2)

theorem Operand.spells_paramSqls :
    (ps : List (String × Operand)) → (∀ s ∈ Operand.paramRawsOf ps, s = rawNow) →
      SpellExprs (Operand.paramSqls ps) (Operand.paramExprs ps)
  | [], _ => .nil
  | p :: ps, h => by
    rw [Operand.paramRawsOf, List.forall_mem_append] at h
    exact .cons (Operand.spells_paramSql p h.1) (Operand.spells_paramSqls ps h.2)

theorem Operand.spells_paramSql :
    (p : String × Operand) → (∀ s ∈ Operand.paramRaws p, s = rawNow) →
      Spells (Operand.paramSql p) (tokensOf (Operand.paramExpr p).pieces)
  | (_, v), h => v.spells_sql h

/-- A membership spells its expression. -/
theorem Source.spells_sql (column : String) (op : Membership) :
    (source : Source) → (∀ s ∈ source.raws, s = rawNow) →
      Spells (Source.sql column op source) (tokensOf (Source.expr column op source).pieces)
  | .values items, h => spells_list column op (Operand.spells_sqls items h)
  | .subquery q, h => by
    obtain ⟨hquery, hparted⟩ := q.spells_sql h
    exact spells_query column op hquery hparted

/-- An argument spells its expression. -/
theorem Argument.spells_sql :
    (a : Argument) → (∀ s ∈ a.raws, s = rawNow) → Spells a.sql (tokensOf a.expr.pieces)
  | .column reference, _ => spells_column reference
  | .predicate p, h => p.spells_sql h

theorem Argument.spells_sqls :
    (as : List Argument) → (∀ s ∈ Argument.rawsOf as, s = rawNow) →
      SpellExprs (Argument.sqls as) (Argument.exprs as)
  | [], _ => .nil
  | a :: as, h => by
    rw [Argument.rawsOf, List.forall_mem_append] at h
    exact .cons (a.spells_sql h.1) (Argument.spells_sqls as h.2)

/-- **Predicates as tokens.** The text of a predicate consists of the tokens of its
    expression. -/
theorem Predicate.spells_sql :
    (p : Predicate) → (∀ s ∈ p.raws, s = rawNow) → Spells p.sql (tokensOf p.expr.pieces)
  | .compare column op operand, h => by
    have hop : Spells op.sql [.atom (.op op.sql)] := by
      cases op <;> exact ⟨_, _, _, rfl, rfl, by simp, rfl⟩
    have hall := ((spells_column column).spaced hop).spaced (operand.spells_sql h)
    simpa [Predicate.sql, Predicate.expr, Expr.pieces, Piece.op, tokens] using hall
  | .pattern column op pattern, _ => by
    have hop : Spells op.sql [.atom (.word op.sql)] := by
      cases op <;> exact ⟨_, _, _, rfl, rfl, by simp, rfl⟩
    have hall := ((spells_column column).spaced hop).spaced (spells_quoteText pattern)
    simpa [Predicate.sql, Predicate.expr, Expr.pieces, word, tokens] using hall
  | .member column op source, h => Source.spells_sql column op source h
  | .null column test, _ => by
    have htest : Spells test.sql (tokensOf ((nullWords test).map word)) := by
      cases test <;> exact ⟨_, _, _, rfl, rfl, by simp, rfl⟩
    simpa [Predicate.sql, Predicate.expr, Expr.pieces] using (spells_column column).spaced htest
  | .group op members, h => spells_group op (Predicate.spells_sqls members h)
  | .helper name params, h => spells_helper name params (Operand.spells_paramSqls params h)
  | .call name args, h => spells_apply name (Argument.spells_sqls args h)
  | .context c, _ => spells_context c

theorem Predicate.spells_sqls :
    (ps : List Predicate) → (∀ s ∈ Predicate.rawsOf ps, s = rawNow) →
      SpellExprs (Predicate.sqls ps) (Predicate.exprs ps)
  | [], _ => .nil
  | p :: ps, h => by
    rw [Predicate.rawsOf, List.forall_mem_append] at h
    exact .cons (p.spells_sql h.1) (Predicate.spells_sqls ps h.2)

/-- The source of a query, in front of whatever follows the table. -/
theorem Join.spells_clause (table : String) (aliasName : Option String) :
    (join : Option Join) → (∀ s ∈ Join.rawsOf join, s = rawNow) →
      Spells (tableSql table aliasName ++ Join.clause join)
        (tokensOf (Join.source (tableExpr table aliasName) join).pieces)
  | none, _ => by
    simpa [Join.clause, Join.source, Expr.pieces] using spells_table table aliasName
  | some j, h => j.spells_sql table aliasName h

/-- A join spells the tables on both sides of it, and its condition. -/
theorem Join.spells_sql (table : String) (aliasName : Option String) :
    (j : Join) → (∀ s ∈ j.raws, s = rawNow) →
      Spells (tableSql table aliasName ++ (" " ++ j.sql))
        (tokensOf (Join.expr (tableExpr table aliasName) j).pieces)
  | ⟨kind, joined, joinedAlias, on⟩, h => by
    have hkind : Spells kind.sql [.atom (.word kind.sql)] := by
      cases kind <;> exact ⟨_, _, _, rfl, rfl, by simp, rfl⟩
    have hjoin : SpellsAll " JOIN " [.atom (.word "JOIN")] := rfl
    have hon : SpellsAll " ON " [.atom (.word "ON")] := rfl
    -- kind and table of the join first, then its condition
    have htables := ((((spells_table table aliasName).spaced hkind).append_all hjoin
      (parted_of_head rfl)).append_spells (spells_table joined joinedAlias)).append_all hon
      (parted_of_head rfl)
    have hall := htables.append_spells (on.spells_sql h)
    simpa [Join.sql, Join.expr, Expr.pieces, word, tokens, String.append_assoc] using hall

/-- The clause of a filter spells its keyword and its condition, behind anything. -/
theorem Predicate.spells_whereClause {front : String} {ts : List Token} (hfront : Spells front ts) :
    (filter : Option Predicate) → (∀ s ∈ Predicate.filterRaws filter, s = rawNow) →
      Spells (front ++ Predicate.whereClause filter)
        (ts ++ tokensOf (Expr.filterPieces (Predicate.filterExpr filter)))
  | none, _ => by
    simpa [Predicate.whereClause, Predicate.filterExpr, Expr.filterPieces] using hfront
  | some p, h => by
    have hwhere : SpellsAll " WHERE " [.atom (.word "WHERE")] := rfl
    have hall := (hfront.append_all hwhere (parted_of_head rfl)).append_spells (p.spells_sql h)
    simpa [Predicate.whereClause, Predicate.filterExpr, Expr.filterPieces, word, tokens,
      String.append_assoc] using hall

/-- The text of a subquery stands in parentheses. -/
theorem Subquery.spells_sql :
    (q : Subquery) → (∀ s ∈ q.raws, s = rawNow) →
      SpellsAll q.sql (Piece.brackets .round q.expr.pieces).tokens ∧ Parted q.sql
  | ⟨table, aliasName, columns, join, filter⟩, h => by
    rw [Subquery.raws, List.forall_mem_append] at h
    have hopen : SpellsAll "(SELECT " [.edge (.opening .round), .atom (.word "SELECT")] := rfl
    have hfrom : SpellsAll " FROM " [.atom (.word "FROM")] := rfl
    have hclose : SpellsAll ")" [.edge (.closing .round)] := rfl
    -- the clauses from left to right, each behind the keyword that begins it
    have hcolumns := (hopen.append_spells (spells_columns columns)).append_all hfrom
      (parted_of_head rfl)
    have hsource := hcolumns.append_spells (Join.spells_clause table aliasName join h.1)
    have hall := (Predicate.spells_whereClause hsource filter h.2).append_all hclose
      (parted_of_head rfl)
    constructor
    · simpa [Subquery.sql, Subquery.expr, Expr.pieces, word, tokens, String.append_assoc] using hall
    · rw [Subquery.sql]
      simp only [String.append_assoc]
      exact (parted_of_head (s := "(SELECT ") rfl).append _

end

end RowPolicy
