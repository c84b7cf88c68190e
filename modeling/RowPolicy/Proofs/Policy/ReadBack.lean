import RowPolicy.Proofs.Policy.Statements
import RowPolicy.Proofs.Sql.Spelling

namespace RowPolicy

open Sql

/-!
# Policies, read back from their statements

A statement that creates a policy can be read from left to right: each part of it ends where
the next one begins, whatever the names, the role and the texts in it are.  So it says what
the policy is.

* `Policy.Parts`, `Policy.parts` — what such a statement says;
* `Policy.readParts?` — the statement, read;
* `Policy.readParts_createStatement` — reading gives back what was written;
* `Policy.sql_determines_policy` — policies that are written alike are alike.
-/

namespace Policy

/-- What a statement that creates a policy says. -/
structure Parts where
  name : String
  /-- The table, with all its names in quotes. -/
  table : String
  restrictive : Bool
  command : Command
  role : Option String
  /-- The text in the `USING` clause. -/
  usingText : Option String
  /-- The text in the `WITH CHECK` clause. -/
  checkText : Option String
  deriving DecidableEq, Repr

/-- What the statement for a policy is to say. -/
def parts (policy : Policy) : Parts where
  name := policy.name
  table := Reference.quoted policy.table
  restrictive := policy.restrictive
  command := policy.command
  role := policy.role
  usingText := policy.usingExpr.map Predicate.sql
  checkText := policy.checkExpr.map Predicate.sql

/-! ### Reading -/

/-- What stands behind some words at the start of a text. -/
def after? (words : String) (s : List Char) : Option (List Char) := words.toList.isPrefixOf? s

/-- A text cut behind the word at its start. -/
def readWord (s : List Char) : String × List Char :=
  (String.ofList (cutAtSpace .outside s).1, (cutAtSpace .outside s).2)

/-- Whether `AS RESTRICTIVE` comes next. -/
def readRestrictive (s : List Char) : Bool × List Char :=
  match after? " AS RESTRICTIVE" s with
  | some rest => (true, rest)
  | none => (false, s)

/-- The role, if there is a `TO` clause. -/
def readRole (s : List Char) : Option String × List Char :=
  match after? " TO " s with
  | some role => (some (Reference.nameOf (readWord role).1), (readWord role).2)
  | none => (none, s)

/-- The text in a clause with parentheses, if the clause is there. -/
def readClause? (keyword : String) (s : List Char) : Option (Option String × List Char) :=
  match after? (" " ++ keyword ++ " (") s with
  | some inner => (enclosed .outside 0 inner).map fun p => (some (String.ofList p.1), p.2)
  | none => some (none, s)

/-- The command of a keyword. -/
def readCommand? (word : String) : Option Command := Command.every.find? fun c => c.sql == word

/-- The parts of a statement that creates a policy. -/
def readParts? (sql : String) : Option Parts := do
  let s ← after? "CREATE POLICY " sql.toList
  let name ← Reference.quotedName? (readWord s).1
  let s ← after? " ON " (readWord s).2
  let table := (readWord s).1
  let (restrictive, s) := readRestrictive (readWord s).2
  let s ← after? " FOR " s
  let command ← readCommand? (readWord s).1
  let (role, s) := readRole (readWord s).2
  let (usingText, s) ← readClause? "USING" s
  let (checkText, s) ← readClause? "WITH CHECK" s
  if s = [] then some { name, table, restrictive, command, role, usingText, checkText } else none

/-! ### Part by part -/

/-- Words at the front are found there, and what follows them is left. -/
theorem after_words (words : String) (rest : List Char) :
    after? words (words.toList ++ rest) = some rest :=
  List.isPrefixOf?_eq_some_iff_append_eq.mpr rfl

/-- A text that is nothing, or has a space at its start. -/
def Spaced (s : List Char) : Prop := ∀ c ∈ s.head?, c = ' '

/-- A word without spaces outside quotes is read up to the space behind it. -/
theorem readWord_append {word : String} {rest : List Char} (hword : Unspaced word.toList)
    (hrest : Spaced rest) : readWord (word.toList ++ rest) = (word, rest) := by
  rw [readWord, hword.cutAtSpace_append hrest, String.ofList_toList]

/-- Words that begin with a space end the word in front of them. -/
theorem spaced_words {words : String} (h : words.toList.head? = some ' ') (rest : List Char) :
    Spaced (words.toList ++ rest) := by
  intro c hc
  rw [List.head?_append, h] at hc
  exact (Option.some.inj hc).symm

/-- The mark of a restrictive policy is read if it is there, and nothing else is. -/
theorem readRestrictive_append (restrictive : Bool) (rest : List Char) :
    readRestrictive ((if restrictive then " AS RESTRICTIVE" else "").toList ++
      (" FOR ".toList ++ rest)) = (restrictive, " FOR ".toList ++ rest) := by
  cases restrictive with
  | true =>
    rw [if_pos rfl, readRestrictive, after_words]
  | false => rfl

/-- With the mark or without, a space comes first. -/
theorem spaced_restrictive (restrictive : Bool) (rest : List Char) :
    Spaced ((if restrictive then " AS RESTRICTIVE" else "").toList ++
      (" FOR ".toList ++ rest)) := by
  have hfor : Spaced (" FOR ".toList ++ rest) := spaced_words rfl rest
  cases restrictive with
  | false => exact hfor
  | true => exact spaced_words rfl _

/-- The keyword of a command names that command. -/
theorem readCommand_sql (command : Command) : readCommand? command.sql = some command := by
  cases command <;> decide

/-- The keyword of a command is one word. -/
theorem unspaced_command (command : Command) : Unspaced command.sql.toList := by
  cases command <;> exact (inert_of_isPlainName (by decide)).unspaced

/-- A role ends at the next space, even if it is written like a keyword. -/
theorem readRole_append (role : Option String) {rest : List Char} (hrest : Spaced rest)
    (hto : after? " TO " rest = none) :
    readRole ((roleClause role).toList ++ rest) = (role, rest) := by
  cases role with
  | none => rw [roleClause, String.toList_empty, List.nil_append, readRole, hto]
  | some role =>
    rw [roleClause, String.toList_append, List.append_assoc, readRole, after_words]
    simp only [readWord_append (inert_escapeIdentifier role).unspaced hrest,
      Reference.nameOf_escapeIdentifier]

/-- The role, if there is one, begins with a space. -/
theorem spaced_role (role : Option String) {rest : List Char} (hrest : Spaced rest) :
    Spaced ((roleClause role).toList ++ rest) := by
  cases role with
  | none => exact hrest
  | some role =>
    rw [roleClause, String.toList_append, List.append_assoc]
    exact spaced_words rfl _

/-- A clause ends at its own parenthesis, since its predicate is contained. -/
theorem readClause_append {keyword : String} {clause : Option Predicate} {rest : List Char}
    (hraws : ∀ s ∈ Predicate.filterRaws clause, s = rawNow)
    (hrest : after? (" " ++ keyword ++ " (") rest = none) :
    readClause? keyword ((predicateClause keyword clause).toList ++ rest) =
      some (clause.map Predicate.sql, rest) := by
  cases clause with
  | none => rw [predicateClause, String.toList_empty, List.nil_append, readClause?, hrest]; rfl
  | some p =>
    have htext : (predicateClause keyword (some p)).toList ++ rest =
        (" " ++ keyword ++ " (").toList ++ (p.sql.toList ++ ')' :: rest) := by
      simp [predicateClause]
    rw [htext, readClause?, after_words]
    simp only [(Predicate.contained hraws).enclosed_append rest, Option.map_some,
      String.ofList_toList]

/-- Where the clauses with predicates begin: at a space, and not with a role; and the
    second one is not the first. -/
theorem clauses_begin (found written : Option Predicate) :
    let clauses := (predicateClause "USING" found).toList ++
      (predicateClause "WITH CHECK" written).toList
    Spaced clauses ∧ after? " TO " clauses = none ∧
      after? (" " ++ "USING" ++ " (") (predicateClause "WITH CHECK" written).toList = none := by
  cases found <;> cases written <;> simp [predicateClause, Spaced, after?, List.isPrefixOf?]

/-- The two clauses, the second one behind the first. -/
theorem readClauses (policy : Policy) (hraws : ∀ s ∈ policy.raws, s = rawNow) :
    let written := (predicateClause "WITH CHECK" policy.checkExpr).toList
    readClause? "USING" ((predicateClause "USING" policy.usingExpr).toList ++ written) =
        some (policy.usingExpr.map Predicate.sql, written) ∧
      readClause? "WITH CHECK" written = some (policy.checkExpr.map Predicate.sql, []) := by
  rw [raws, List.forall_mem_append] at hraws
  have hcheck := readClause_append hraws.2 (show after? (" " ++ "WITH CHECK" ++ " (") [] = none by
    simp [after?, List.isPrefixOf?])
  rw [List.append_nil] at hcheck
  exact ⟨readClause_append hraws.1 (clauses_begin none policy.checkExpr).2.2, hcheck⟩

/-- The statement as the list of its parts, in the order they are read. -/
theorem toList_createStatement (policy : Policy) :
    policy.createStatement.toList =
      "CREATE POLICY ".toList ++ ((quoteIdentifier policy.name).toList ++
        (" ON ".toList ++ ((Reference.quoted policy.table).toList ++
          ((if policy.restrictive then " AS RESTRICTIVE" else "").toList ++
            (" FOR ".toList ++ (policy.command.sql.toList ++ ((roleClause policy.role).toList ++
              ((predicateClause "USING" policy.usingExpr).toList ++
                (predicateClause "WITH CHECK" policy.checkExpr).toList)))))))) := by
  unfold createStatement
  simp only [String.toList_append, List.append_assoc]

/-- **Reading back.** The statement for a policy is read as what it was written for. -/
theorem readParts_createStatement {policy : Policy} (hraws : ∀ s ∈ policy.raws, s = rawNow) :
    readParts? policy.createStatement = some policy.parts := by
  obtain ⟨husing, hcheck⟩ := readClauses policy hraws
  obtain ⟨hspaced, hto, -⟩ := clauses_begin policy.usingExpr policy.checkExpr
  -- each word, with what stands behind it
  have hname (rest : List Char) := readWord_append (inert_quoteIdentifier policy.name).unspaced
    (show Spaced (" ON ".toList ++ rest) from spaced_words rfl rest)
  have htable (rest : List Char) := readWord_append (inert_quoted policy.table).unspaced
    (spaced_restrictive policy.restrictive rest)
  have hcommand := readWord_append (unspaced_command policy.command)
    (spaced_role policy.role hspaced)
  have hrole := readRole_append policy.role hspaced hto
  unfold readParts?
  rw [toList_createStatement]
  simp only [after_words, Option.bind_eq_bind, Option.bind_some, hname,
    Reference.quotedName_quoteIdentifier, htable, readRestrictive_append, hcommand,
    readCommand_sql, hrole, husing, hcheck]
  rfl

/-! ### Policies that are written alike -/

/-- A clause depends on the text of its predicate alone. -/
theorem predicateClause_congr (keyword : String) {a b : Option Predicate}
    (h : a.map Predicate.sql = b.map Predicate.sql) :
    predicateClause keyword a = predicateClause keyword b := by
  have hclause (o : Option Predicate) : predicateClause keyword o =
      ((o.map Predicate.sql).map fun text => " " ++ keyword ++ " (" ++ text ++ ")").getD "" := by
    cases o <;> rfl
  rw [hclause, hclause, h]

/-- The statement for a policy depends on nothing but what it says. -/
theorem createStatement_congr {p q : Policy} (h : p.parts = q.parts) :
    p.createStatement = q.createStatement := by
  simp only [parts, Parts.mk.injEq] at h
  obtain ⟨hname, htable, hrestrictive, hcommand, hrole, husing, hcheck⟩ := h
  unfold createStatement
  rw [hname, htable, hrestrictive, hcommand, hrole, predicateClause_congr "USING" husing,
    predicateClause_congr "WITH CHECK" hcheck]

/-- **A statement determines its policy.** A policy with a predicate, in which no SQL but
    `now()` is taken over, is written as a text that is read as this policy; and two such
    policies are written alike if and only if they agree in everything that the text is to
    say. -/
theorem sql_determines_policy (p q : Policy) (hp : p.validate = .ok p) (hq : q.validate = .ok q)
    (hpraws : ∀ s ∈ p.raws, s = rawNow) (hqraws : ∀ s ∈ q.raws, s = rawNow) :
    (∃ sql, p.sql {} = .ok sql ∧ readParts? sql = some p.parts) ∧
      ((∃ sql, p.sql {} = .ok sql ∧ q.sql {} = .ok sql) ↔
        p.name = q.name ∧ Reference.quoted p.table = Reference.quoted q.table ∧
          p.restrictive = q.restrictive ∧ p.command = q.command ∧ p.role = q.role ∧
          p.usingExpr.map Predicate.sql = q.usingExpr.map Predicate.sql ∧
          p.checkExpr.map Predicate.sql = q.checkExpr.map Predicate.sql) := by
  -- a valid policy is written without extras as its statement
  have hsql {policy : Policy} (h : policy.validate = .ok policy) :
      policy.sql {} = .ok policy.createStatement :=
    sql_eq_ok.mpr ⟨(validate_eq_ok.mp h).1, (text_default policy).symm⟩
  refine ⟨⟨_, hsql hp, readParts_createStatement hpraws⟩, ?_⟩
  rw [hsql hp, hsql hq]
  constructor
  · rintro ⟨sql, hpsql, hqsql⟩
    obtain rfl := Except.ok.inj hpsql
    -- both statements are read back, so their parts are the same
    have hparts : p.parts = q.parts := by
      rw [← Option.some.injEq, ← readParts_createStatement hpraws, ← Except.ok.inj hqsql,
        readParts_createStatement hqraws]
    simpa only [parts, Parts.mk.injEq] using hparts
  · intro h
    -- and the parts are all a statement is made of
    have hparts : p.parts = q.parts := by simpa only [parts, Parts.mk.injEq] using h
    exact ⟨_, rfl, by rw [createStatement_congr hparts]⟩

/-- Keywords as names, as a role and in a string: a role that is called `USING` is not
    mistaken for the clause. -/
theorem sql_determines_policy_keywords :
    let p : Policy := { start "p\" ON \"u" "t" .select with
      role := some "USING"
      usingExpr := some (.compare "a" .eq (.text "') WITH CHECK (true")) }
    let q : Policy := { p with role := none }
    p.sql {} = .ok ("CREATE POLICY \"p\"\" ON \"\"u\" ON \"t\" FOR SELECT TO USING" ++
      " USING (\"a\" = ''') WITH CHECK (true')") ∧
    ¬ ∃ sql, p.sql {} = .ok sql ∧ q.sql {} = .ok sql := by
  intro p q
  refine ⟨by decide +kernel, fun h => ?_⟩
  -- the roles are the fifth of the seven parts
  have hsame := (sql_determines_policy p q rfl rfl (by decide) (by decide)).2.mp h
  exact absurd hsame.2.2.2.2.1 (by decide)

end Policy

end RowPolicy
