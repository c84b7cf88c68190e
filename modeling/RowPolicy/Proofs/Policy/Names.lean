import RowPolicy.Policy.Sql
import RowPolicy.Proofs.Predicate.Tokens
import RowPolicy.Proofs.Sql.Naming
import RowPolicy.Proofs.Sql.Spelling

namespace RowPolicy

open Sql
open Piece (word listed tokensOf)

/-!
# Identifiers, and what they stand for

An identifier is a token: a word that begins with a letter or an underscore, taken in lower
case, or a name in quotes, taken as it stands between them.  A name that is written as an
identifier is one such token, and stands for the name itself unless it is written as a word
with capitals in it:

* `Sql.Atom.identifier?`, `Sql.Name.identifier?` — the identifier that a token is;
* `Sql.readAs`, `Sql.pathReadAs` — what a name and a reference are read as where nothing is
  quoted without need;
* `Sql.IsNumeral` — a word that begins like a number;
* `Policy.heading`, `Subquery.heading` — a statement up to the role in it, and a subquery up
  to its conditions;
* `Sql.roleIn?`, `Sql.QueryNames` — the role and the names that are read there;
* `names_readAs` — the role of a policy, and the columns, tables and aliases of a subquery.
-/

namespace Sql

/-! ### Identifiers -/

/-- The identifier that a token is, if it is one. -/
def Atom.identifier? : Atom → Option String
  | .word s | .label s => if startsWithDigit s then none else some (folded s)
  | .name s => some s
  | _ => none

/-- The identifier that a written name is, if it is one. -/
def Name.identifier? (n : Name) : Option String := (n.atom false).identifier?

/-- A word that begins like a number. -/
def IsNumeral (s : String) : Prop := isPlainName s = true ∧ startsWithDigit s = true

instance (s : String) : Decidable (IsNumeral s) := inferInstanceAs (Decidable (_ ∧ _))

/-- What a name is read as where it is quoted only if it has to be. -/
def readAs (name : String) : String := if isPlainName name then folded name else name

/-- A name is read as it was given unless it has capitals and needs no quotes. -/
theorem readAs_eq_self {name : String} : readAs name = name ↔ Unfolded name := by
  rw [readAs, Unfolded]
  by_cases hplain : isPlainName name = true
  · rw [if_pos hplain, folded_eq_self]
    exact ⟨fun h _ => h, fun h => h hplain⟩
  · rw [if_neg hplain]
    exact ⟨fun _ h => absurd h hplain, fun _ => rfl⟩

/-- A name that does not begin like a number is read as one identifier, however it is written. -/
theorem identifier_identifierName {name : String} (h : ¬ IsNumeral name) :
    (identifierName name).identifier? = some (readAs name) := by
  rw [identifierName, readAs]
  by_cases hplain : isPlainName name = true
  · have hdigit : ¬ startsWithDigit name = true := fun hdigit => h ⟨hplain, hdigit⟩
    rw [if_pos hplain, if_pos hplain]
    exact if_neg hdigit
  · rw [if_neg hplain, if_neg hplain]
    rfl

/-! ### References -/

/-- What a segment is read as; the `*` is no name. -/
def segmentReadAs (segment : String) : Option String :=
  if segment = "*" then none
  else some (if isPlainName segment then folded segment else Reference.nameOf segment)

/-- What the segments of a reference are read as. -/
def pathReadAs (reference : String) : List (Option String) :=
  (Reference.segments reference).map segmentReadAs

/-- A segment is read as its name, and `*` as no name at all. -/
theorem identifier_segmentName {segment : String} (h : ¬ IsNumeral segment) :
    (segmentName identifierName segment).identifier? = segmentReadAs segment := by
  -- `*` first, then a segment in quotes, then a bare one
  by_cases hstar : segment = "*"
  · rw [hstar, segmentName_star, segmentReadAs, if_pos rfl]
    rfl
  · rw [segmentReadAs, if_neg hstar]
    cases hname : Reference.quotedName? segment with
    | some name =>
      have hplain : ¬ isPlainName segment = true := fun hplain => by
        rw [Reference.quotedName_of_isPlainName hplain] at hname
        cases hname
      rw [segmentName_of_quotedName hname, if_neg hplain, Reference.nameOf, hname]
      rfl
    | none =>
      rw [segmentName_of_none hstar hname, identifier_identifierName h, readAs, Reference.nameOf,
        hname]
      rfl

/-- A reference is read segment by segment. -/
theorem identifier_escapedPath {reference : String}
    (h : ∀ segment ∈ Reference.segments reference, ¬ IsNumeral segment) :
    (escapedPath reference).map Name.identifier? = pathReadAs reference := by
  rw [escapedPath, pathWith, List.map_map, pathReadAs]
  exact List.map_congr_left fun segment hsegment => identifier_segmentName (h segment hsegment)

end Sql

/-! ### Policies -/

namespace Sql

/-- The identifier behind the first `TO`. -/
def roleIn? (ts : List Token) : Option String :=
  match ts.dropWhile fun t => t != .atom (.word "TO") with
  | _ :: .atom a :: _ => a.identifier?
  | _ => none

/-- The role stands behind the first `TO`, so a front without that word says nothing about it. -/
theorem roleIn_append {front : List Token} (h : Token.atom (.word "TO") ∉ front) (ts : List Token) :
    roleIn? (front ++ ts) = roleIn? ts := by
  have hfront : ∀ t ∈ front, (t != .atom (.word "TO")) = true := by
    intro t ht
    rw [bne_iff_ne]
    rintro rfl
    exact h ht
  rw [roleIn?, List.dropWhile_append_of_pos hfront]
  rfl

/-- A path has a word in it only if one of its names is written as that word. -/
theorem word_notMem_pathPieces {w : String} {path : List Name}
    (h : ∀ n ∈ path, ∀ dotted, n.atom dotted ≠ .word w) :
    Token.atom (.word w) ∉ tokensOf (pathPieces false path) := by
  cases path with
  | nil => exact List.not_mem_nil
  | cons n path =>
    obtain ⟨hn, hpath⟩ := List.forall_mem_cons.mp h
    -- behind the first name, every name has a dot in front
    clear h
    have hrest : Token.atom (.word w) ∉
        tokensOf (path.flatMap fun m => [.atom .dot, .atom (m.atom true)]) := by
      induction path with
      | nil => exact List.not_mem_nil
      | cons m path ih =>
        rw [List.forall_mem_cons] at hpath
        simpa [Piece.tokens, (hpath.1 true).symm] using ih hpath.2
    simpa [pathPieces, Piece.tokens, (hn false).symm] using hrest

/-- A reference that is all in quotes has no words in it. -/
theorem word_notMem_quotedPath (w reference : String) :
    Token.atom (.word w) ∉ tokensOf (pathPieces false (quotedPath reference)) := by
  refine word_notMem_pathPieces fun n hn dotted => ?_
  obtain ⟨segment, -, rfl⟩ := List.mem_map.mp hn
  rw [segmentName]
  split
  · exact Atom.noConfusion
  · split <;> exact Atom.noConfusion

end Sql

namespace Policy

/-- The statement that creates a policy, up to its command. -/
def heading (policy : Policy) : String :=
  "CREATE POLICY " ++ quoteIdentifier policy.name ++ " ON " ++ Reference.quoted policy.table ++
    (if policy.restrictive then " AS RESTRICTIVE" else "") ++ " FOR " ++ policy.command.sql

/-- The tokens of that part. -/
def headingTokens (policy : Policy) : List Token :=
  tokensOf ([word "CREATE", word "POLICY", .atom (.name policy.name), word "ON"] ++
    pathPieces false (quotedPath policy.table) ++
    ((if policy.restrictive then ["AS", "RESTRICTIVE"] else []) ++ ["FOR"]).map word ++
    [word policy.command.sql])

/-- The heading of a policy is spelled by its keywords, with the name and the table between them. -/
theorem spells_heading (policy : Policy) : Spells policy.heading policy.headingTokens := by
  have hlead : SpellsAll "CREATE POLICY " (tokensOf [word "CREATE", word "POLICY"]) := rfl
  have hon : SpellsAll " ON " (tokensOf [word "ON"]) := rfl
  -- the one word that may be missing stands with the keyword behind it
  have hfor : SpellsAll ((if policy.restrictive then " AS RESTRICTIVE" else "") ++ " FOR ")
      (tokensOf (((if policy.restrictive then ["AS", "RESTRICTIVE"] else []) ++ ["FOR"]).map word)) ∧
      Parted ((if policy.restrictive then " AS RESTRICTIVE" else "") ++ " FOR ") := by
    cases policy.restrictive <;> exact ⟨by decide +kernel, parted_of_head (by decide +kernel)⟩
  have hcommand : Spells policy.command.sql (tokensOf [word policy.command.sql]) := by
    cases policy.command <;> exact spells_plain false (by decide)
  have hname := hlead.append_spells (spells_quoteIdentifier false policy.name)
  have htable := (hname.append_all hon (parted_of_head rfl)).append_spells
    (spells_quoted policy.table)
  have hall := (htable.append_all hfor.1 hfor.2).append_spells hcommand
  rw [← String.append_assoc] at hall
  rw [headingTokens, Piece.tokensOf_append, Piece.tokensOf_append, Piece.tokensOf_append]
  exact hall

/-- The heading does not say `TO`, whatever the policy and its table are called. -/
theorem word_notMem_headingTokens (policy : Policy) :
    Token.atom (.word "TO") ∉ policy.headingTokens := by
  have htable := word_notMem_quotedPath "TO" policy.table
  have hcommand : policy.command.sql ≠ "TO" := by
    cases policy.command <;> decide
  have hkind : Token.atom (.word "TO") ∉
      tokensOf ((if policy.restrictive then ["AS", "RESTRICTIVE"] else []).map word) := by
    cases policy.restrictive <;> decide
  rw [headingTokens, Piece.tokensOf_append, Piece.tokensOf_append, Piece.tokensOf_append]
  simp [htable, hkind, hcommand.symm, word, Piece.tokens]

/-- The statement says the role, if there is one, behind the first `TO`. -/
theorem spells_role {policy : Policy} (h : ∀ role ∈ policy.role, ¬ IsNumeral role) :
    ∃ ts, Spells (policy.heading ++ roleClause policy.role) ts ∧
      roleIn? ts = policy.role.map readAs := by
  have hfront := roleIn_append (word_notMem_headingTokens policy)
  cases hrole : policy.role with
  | none =>
    refine ⟨policy.headingTokens, ?_, ?_⟩
    · simpa [roleClause] using spells_heading policy
    · rw [← List.append_nil policy.headingTokens, hfront]
      rfl
  | some role =>
    have hto : SpellsAll " TO " (tokensOf [word "TO"]) := rfl
    have hall := ((spells_heading policy).append_all hto (parted_of_head rfl)).append_spells
      (spells_escapeIdentifier false role)
    rw [String.append_assoc, List.append_assoc] at hall
    refine ⟨_, hall, ?_⟩
    -- no name in the heading is taken for the word, since they all are in quotes
    rw [hfront]
    exact identifier_identifierName (h role hrole)

/-- The clauses with the predicates of a policy. -/
def clauses (policy : Policy) : String :=
  predicateClause "USING" policy.usingExpr ++ predicateClause "WITH CHECK" policy.checkExpr

/-- A statement is its heading, the role and the clauses. -/
theorem createStatement_heading (policy : Policy) :
    policy.createStatement = policy.heading ++ roleClause policy.role ++ policy.clauses := by
  unfold createStatement heading clauses
  simp only [String.append_assoc]

/-- The clauses, if there are any, begin with a space. -/
theorem parted_clauses (policy : Policy) : policy.clauses = "" ∨ Parted policy.clauses := by
  -- a clause begins with its space, and a missing one is no text
  have hclause (keyword : String) (p : Predicate) : Parted (predicateClause keyword (some p)) := by
    have hspace : Parted " " := parted_of_head rfl
    exact (((hspace.append _).append _).append _).append _
  have hnone (keyword : String) : predicateClause keyword none = "" := rfl
  rw [clauses]
  cases policy.usingExpr with
  | some p => exact .inr ((hclause "USING" p).append _)
  | none =>
    rw [hnone, String.empty_append]
    cases policy.checkExpr with
    | some p => exact .inr (hclause "WITH CHECK" p)
    | none => exact .inl (hnone "WITH CHECK")

end Policy

/-! ### Subqueries -/

namespace Sql

/-- The names in a query: its columns, its table, and the table that it joins. -/
structure QueryNames where
  columns : List (List Name)
  table : TableName
  joined : Option (JoinKind × TableName)

/-- The tokens of a join up to its condition. -/
def joinTokens : Option (JoinKind × TableName) → List Token
  | none => []
  | some (kind, t) => tokensOf (word kind.sql :: word "JOIN" :: t.pieces)

/-- The tokens of a query up to its conditions. -/
def QueryNames.tokens (names : QueryNames) : List Token :=
  .edge (.opening .round) ::
    (tokensOf (word "SELECT" :: (listed (names.columns.map (pathPieces false)) ++
      word "FROM" :: names.table.pieces)) ++ joinTokens names.joined)

/-- A table and its alias are read as what they were given as. -/
def TableName.ReadAs (t : TableName) (table : String) (aliasName : Option String) : Prop :=
  t.path.map Name.identifier? = pathReadAs table ∧
    t.aliasName.map Name.identifier? = aliasName.map fun a => some (readAs a)

/-- The columns, the table and the joined table of a query are read as what they were given
    as; the columns are all there are if none were given. -/
structure QueryNames.ReadAs (names : QueryNames) (q : Subquery) : Prop where
  columns : names.columns.map (List.map Name.identifier?) =
    if q.columns = [] then [[none]] else q.columns.map pathReadAs
  table : names.table.ReadAs q.table q.aliasName
  joined : Option.Rel (fun t j => t.1 = j.kind ∧ t.2.ReadAs j.table j.aliasName) names.joined q.join

end Sql

/-- The names in a reference to a table, with the alias. -/
def tableNames (table : String) (aliasName : Option String) : List String :=
  Reference.segments table ++ aliasName.toList

/-- A table and its alias are read as they were given. -/
theorem readAs_tableExpr {table : String} {aliasName : Option String}
    (h : ∀ name ∈ tableNames table aliasName, ¬ IsNumeral name) :
    (tableExpr table aliasName).ReadAs table aliasName := by
  rw [tableNames, List.forall_mem_append] at h
  refine ⟨identifier_escapedPath h.1, ?_⟩
  cases aliasName with
  | none => rfl
  | some a => exact congrArg some (identifier_identifierName (h.2 a (by simp)))

namespace Join

/-- A join up to its condition, with a space in front; nothing without a join. -/
def heading : Option Join → String
  | none => ""
  | some j => " " ++ j.kind.sql ++ " JOIN " ++ tableSql j.table j.aliasName

/-- The table that a join adds, with its kind. -/
def named (j : Join) : JoinKind × TableName := (j.kind, tableExpr j.table j.aliasName)

/-- The heading of a join is spelled behind any text. -/
theorem spells_heading {text : String} {ts : List Token} (htext : Spells text ts)
    (join : Option Join) : Spells (text ++ heading join) (ts ++ joinTokens (join.map named)) := by
  cases join with
  | none => simpa [heading, joinTokens] using htext
  | some j =>
    have hkind : Spells j.kind.sql [.atom (.word j.kind.sql)] := by
      cases j.kind <;> exact spells_plain false (by decide)
    have hjoin : SpellsAll " JOIN " [.atom (.word "JOIN")] := rfl
    have hall := ((htext.spaced hkind).append_all hjoin (parted_of_head rfl)).append_spells
      (spells_table j.table j.aliasName)
    simpa [heading, joinTokens, named, word, Piece.tokens, String.append_assoc] using hall

end Join

namespace Subquery

/-- A subquery up to its conditions. -/
def heading (q : Subquery) : String :=
  "(SELECT " ++ columnsSql q.columns ++ " FROM " ++ tableSql q.table q.aliasName ++
    Join.heading q.join

/-- The names that a subquery is written with up to its conditions. -/
def named (q : Subquery) : QueryNames where
  columns := if q.columns = [] then [[.star]] else q.columns.map escapedPath
  table := tableExpr q.table q.aliasName
  joined := q.join.map Join.named

/-- The names that are given to a subquery for what it selects and for its tables. -/
def givenNames (q : Subquery) : List String :=
  q.columns.flatMap Reference.segments ++ tableNames q.table q.aliasName ++
    q.join.toList.flatMap fun j => tableNames j.table j.aliasName

/-- A subquery up to its conditions is spelled by the names it is written with. -/
theorem spells_heading (q : Subquery) : Spells q.heading q.named.tokens := by
  have hopen : SpellsAll "(SELECT " [.edge (.opening .round), .atom (.word "SELECT")] := rfl
  have hfrom : SpellsAll " FROM " [.atom (.word "FROM")] := rfl
  -- without columns the query selects all there are
  have hpieces : Expr.piecesOf (columnExprs q.columns) =
      q.named.columns.map (pathPieces false) := by
    rw [columnExprs, named, Expr.piecesOf_eq_map]
    by_cases hempty : q.columns = []
    · rw [hempty]
      rfl
    · rw [if_neg (by simpa using hempty), if_neg hempty, List.map_map, List.map_map]
      exact List.map_congr_left fun column _ => pieces_columnExpr (escapedPath column)
  have hcolumns := spells_columns q.columns
  rw [hpieces] at hcolumns
  have htable := ((hopen.append_spells hcolumns).append_all hfrom
    (parted_of_head rfl)).append_spells (spells_table q.table q.aliasName)
  have hall := Join.spells_heading htable q.join
  rw [QueryNames.tokens]
  simpa [heading, word, Piece.tokens, named] using hall

/-- What follows is a clause, or the end of the subquery. -/
theorem sql_heading (q : Subquery) : ∃ rest, q.sql = q.heading ++ rest ∧ Parted rest := by
  obtain ⟨table, aliasName, columns, join, filter⟩ := q
  -- what follows the joined table begins with a space or closes the query
  have hfilter : Parted (Predicate.whereClause filter ++ ")") := by
    cases filter with
    | none => exact parted_of_head rfl
    | some p =>
      have hwhere : Parted " WHERE " := parted_of_head rfl
      exact (hwhere.append _).append _
  cases join with
  | none =>
    refine ⟨_, ?_, hfilter⟩
    unfold Subquery.sql heading Join.clause Join.heading
    simp only [String.append_assoc, String.empty_append]
  | some j =>
    obtain ⟨kind, joined, joinedAlias, on⟩ := j
    have hon : Parted " ON " := parted_of_head rfl
    refine ⟨" ON " ++ (on.sql ++ (Predicate.whereClause filter ++ ")")), ?_, hon.append _⟩
    unfold Subquery.sql heading Join.clause Join.heading Join.sql
    simp only [String.append_assoc]

/-- The names a subquery is written with are read as they were given. -/
theorem readAs_named {q : Subquery} (h : ∀ name ∈ q.givenNames, ¬ IsNumeral name) :
    q.named.ReadAs q := by
  rw [givenNames, List.forall_mem_append, List.forall_mem_append] at h
  obtain ⟨⟨hcolumns, htable⟩, hjoin⟩ := h
  constructor
  -- columns, table and joined table are each read by themselves
  · rw [named]
    by_cases hempty : q.columns = []
    · rw [if_pos hempty, if_pos hempty]
      rfl
    · rw [if_neg hempty, if_neg hempty, List.map_map]
      refine List.map_congr_left fun column hcolumn =>
        identifier_escapedPath fun segment hsegment => ?_
      exact hcolumns segment (List.mem_flatMap.mpr ⟨column, hcolumn, hsegment⟩)
  · exact readAs_tableExpr htable
  · rw [named]
    cases hj : q.join with
    | none => exact .none
    | some j =>
      refine .some ⟨rfl, readAs_tableExpr fun name hname => hjoin name ?_⟩
      rw [hj]
      simpa using hname

end Subquery

/-! ### Names -/

/-- **Names, as they are read.** A name that is written as an identifier is one token, unless
    it is a word that begins like a number, and it is read as the name itself, in lower case if
    it needs no quotes: a plain name is written as it is and makes a word, and any other one is
    written in quotes, which hold it.  So the role of a policy is read behind `TO`, whatever the
    clauses hold, and the columns, the tables and the aliases of a subquery in their places,
    whatever its conditions hold. -/
theorem names_readAs :
    (∀ name, ¬ IsNumeral name → ∃ a, tokens? (escapeIdentifier name) = some [.atom a] ∧
        a.identifier? = some (readAs name) ∧
        (isPlainName name = true → escapeIdentifier name = name ∧ a = .word name) ∧
        (isPlainName name = false → escapeIdentifier name = quoteIdentifier name ∧
          a = .name name)) ∧
      (∀ name, readAs name = name ↔ Unfolded name) ∧
      (∀ policy : Policy, (∀ role ∈ policy.role, ¬ IsNumeral role) →
        ∃ front clauses ts, policy.createStatement = front ++ clauses ∧
          (clauses = "" ∨ Parted clauses) ∧ Spells front ts ∧
          roleIn? ts = policy.role.map readAs) ∧
      ∀ q : Subquery, (∀ name ∈ q.givenNames, ¬ IsNumeral name) →
        ∃ front conditions, ∃ names : QueryNames, q.sql = front ++ conditions ∧ Parted conditions ∧
          Spells front names.tokens ∧ names.ReadAs q := by
  refine ⟨fun name h => ?_, fun name => readAs_eq_self, fun policy h => ?_, fun q h => ?_⟩
  -- a name is written as one token, bare or in quotes by the same test as it is read
  · refine ⟨_, Spells.tokens? (spells_escapeIdentifier false name), identifier_identifierName h,
      fun hplain => ?_, fun hplain => ?_⟩
    · rw [escapeIdentifier, identifierName, if_pos hplain, if_pos hplain]
      exact ⟨rfl, rfl⟩
    · have hneeds : ¬ isPlainName name = true := by simp [hplain]
      rw [escapeIdentifier, identifierName, if_neg hneeds, if_neg hneeds]
      exact ⟨rfl, rfl⟩
  · obtain ⟨ts, hspells, hrole⟩ := policy.spells_role h
    refine ⟨_, _, ts, policy.createStatement_heading, policy.parted_clauses, hspells, hrole⟩
  · obtain ⟨conditions, hsql, hparted⟩ := q.sql_heading
    exact ⟨_, conditions, q.named, hsql, hparted, q.spells_heading, q.readAs_named h⟩

/-- Names with blanks and quotes in them, and a policy that is called like the clause. -/
theorem names_readAs_quotes :
    let policy : Policy := { Policy.start "TO \"x" "t" .select with role := some "a \"b" }
    let q : Subquery :=
      ⟨"app.\"My T\"", some "my t", ["t.Team", "*"], some ⟨.left, "u", none, .context .authUid⟩, none⟩
    (tokens? (escapeIdentifier "a \"b") = some [.atom (.name "a \"b")] ∧
      escapeIdentifier "a \"b" = "\"a \"\"b\"" ∧
      (Atom.name "a \"b").identifier? = some "a \"b") ∧
      (∃ front clauses ts, policy.createStatement = front ++ clauses ∧
        (clauses = "" ∨ Parted clauses) ∧ Spells front ts ∧ roleIn? ts = some "a \"b") ∧
      (∀ name ∈ q.givenNames, ¬ IsNumeral name) ∧
      ∃ names : QueryNames, names.ReadAs q ∧
        names.columns.map (List.map Name.identifier?) = [[some "t", some "team"], [none]] := by
  intro policy q
  obtain ⟨htoken, -, hpolicy, hquery⟩ := names_readAs
  have hgiven : ∀ name ∈ q.givenNames, ¬ IsNumeral name := by decide +kernel
  obtain ⟨front, conditions, names, -, -, -, hnames⟩ := hquery q hgiven
  obtain ⟨a, ha, hread, -, hquoted⟩ := htoken "a \"b" (by decide)
  obtain ⟨hwritten, rfl⟩ := hquoted (by decide)
  -- the name with a quote in it has to be written in quotes
  exact ⟨⟨ha, hwritten.trans (by decide), hread⟩, hpolicy policy (by decide), hgiven, names,
    hnames, hnames.columns.trans (by decide +kernel)⟩

/-- A name with capitals that needs no quotes is read as another name. -/
theorem names_readAs_capitals :
    tokens? (escapeIdentifier "Table1") = some [.atom (.word "Table1")] ∧
      (Atom.word "Table1").identifier? = some "table1" ∧
      ¬ ∃ a, tokens? (escapeIdentifier "Table1") = some [.atom a] ∧
        a.identifier? = some "Table1" := by
  have htokens : tokens? (escapeIdentifier "Table1") = some [.atom (.word "Table1")] := by decide
  refine ⟨htokens, by decide, ?_⟩
  rintro ⟨a, ha, hname⟩
  rw [htokens] at ha
  cases ha
  exact absurd hname (by decide)

end RowPolicy
