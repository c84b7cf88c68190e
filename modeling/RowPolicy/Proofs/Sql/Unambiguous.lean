import RowPolicy.Proofs.Sql.Operators

namespace RowPolicy.Sql

/-!
# A text is read in one way only

What has no operator is told by its first piece, and what stands in brackets by their content.
A source and a query are cut at the words that separate their parts.  With the operators, this
is every expression, so by induction no two of them are written alike.

* `atomClass`, `ReadAlone.of_atom` — values without an operator, grouped by their first piece;
* `readAlone_source`, `readAlone_query` — sources and queries;
* `readAlone` — every expression;
* `Reads.unique` — a text is read as one expression.
-/

open Sql.Expr Sql.Piece

/-! ### Values without an operator -/

/-- What the first piece of a value without an operator says about it. -/
def leadClass : Piece → Nat
  | .atom (.word s) => if startsWithDigit s then 1 else if isKeyword s then 2 else 3
  | .atom (.name _) => 3
  | .atom (.text _) => 4
  | .atom (.op _) => 5
  | .brackets .. => 6
  | _ => 7

/-- The values without an operator, grouped by what they begin with. -/
def atomClass : Expr → Nat
  | number .. => 1
  | constant _ | array _ | arrayOf _ | .exists _ => 2
  | column _ | call .. => 3
  | text _ => 4
  | all => 5
  | paren _ => 6
  | _ => 0

/-- A path begins with a name. -/
theorem leadClass_of_isPath {path : List Name} (h : IsPath path) :
    ∃ p rest, pathPieces false path = p :: rest ∧ leadClass p = 3 := by
  cases path with
  | nil => cases h
  | cons n ns =>
    refine ⟨_, _, rfl, ?_⟩
    have hstands := h.1
    cases n with
    | bare s => simp_all [Name.stands, Name.atom, leadClass]
    | quoted s => rfl
    | star => cases hstands

/-- A column begins with a name. -/
theorem leadClass_of_isColumn {path : List Name} (h : IsColumn path) :
    ∃ p rest, pathPieces false path = p :: rest ∧ leadClass p = 3 := by
  obtain h | ⟨table, htable, rfl⟩ := h
  · exact leadClass_of_isPath h
  · obtain ⟨p, rest, hpieces, hclass⟩ := leadClass_of_isPath htable
    cases table with
    | nil => cases htable
    | cons n ns =>
      rw [pathPieces] at hpieces
      obtain ⟨rfl, -⟩ := List.cons.inj hpieces
      exact ⟨_, _, rfl, hclass⟩

/-- What binds tightest begins with a piece that tells of which kind it is. -/
theorem exists_leadClass_eq {e : Expr} (hfits : e.Fits) (hlevel : e.level = 7) :
    ∃ p rest, e.pieces = p :: rest ∧ leadClass p = atomClass e := by
  -- the words that begin a form are keywords and no digits, so no name begins with them
  have hwords : ∀ w ∈ "ARRAY" :: "EXISTS" :: constants,
      startsWithDigit w = false ∧ isKeyword w = true := by decide
  have hword (w : String) (hw : w ∈ "ARRAY" :: "EXISTS" :: constants) :
      leadClass (word w) = 2 := by
    simp [leadClass, word, hwords w hw]
  cases e with
  | constant w => exact ⟨_, _, rfl, hword w (by simp [show w ∈ constants from hfits])⟩
  | number negative whole fraction =>
    cases negative with
    | true => cases hlevel
    | false =>
      refine ⟨_, _, rfl, ?_⟩
      simp [leadClass, word, startsWithDigit_of_isDigits hfits.1, atomClass]
  | text | all | paren => exact ⟨_, _, rfl, rfl⟩
  | column path => exact leadClass_of_isColumn hfits
  | call function args =>
    obtain ⟨p, rest, hpieces, hclass⟩ := leadClass_of_isPath hfits.1
    exact ⟨p, _, by rw [pieces, hpieces, List.cons_append], hclass⟩
  | array | arrayOf => exact ⟨_, _, rfl, hword "ARRAY" (by simp)⟩
  | «exists» => exact ⟨_, _, rfl, hword "EXISTS" (by simp)⟩
  | chain op => cases op <;> cases hlevel
  | _ => cases hlevel

/-- No bracket stands in a path. -/
theorem brackets_not_mem_pathPieces (dotted : Bool) (path : List Name) (b : Bracket)
    (content : List Piece) : Piece.brackets b content ∉ pathPieces dotted path := by
  cases path <;> simp [pathPieces]

/-- Arguments are values, or the star alone. -/
theorem level_pos_of_args {args : List Expr} (h : args = [all] ∨ ∀ a ∈ args, a.Binds 1) :
    ∀ a ∈ args, 1 ≤ a.level := by
  obtain rfl | h := h
  · simp [level]
  · exact fun a ha => (h a ha).1

/-- A call holds a pair of brackets, and a column none. -/
theorem call_ne_column (function path : List Name) (args : List Expr) :
    (call function args).pieces ≠ (column path).pieces := by
  intro h
  have hmem : Piece.brackets .round (listed (piecesOf args)) ∈ (column path).pieces :=
    h ▸ List.mem_append_right (pathPieces false function) List.mem_cons_self
  exact brackets_not_mem_pathPieces _ _ _ _ hmem

/-- A value without an operator has to be told apart from those of its class only. -/
theorem ReadAlone.of_atom {e : Expr} (he : e.Everywhere Fits) (hlevel : e.level = 7)
    (halone : ∀ e', e'.Everywhere Fits → e'.level = 7 → atomClass e' = atomClass e →
      e.pieces = e'.pieces → e = e') : ReadAlone e := by
  refine .of_value he (by omega) fun e' he' hlevel' h => ?_
  have hlevel' : e'.level = 7 := hlevel'.trans hlevel
  refine halone e' he' hlevel' ?_ h
  -- both begin with the same piece
  obtain ⟨p, rest, hpieces, hp⟩ := exists_leadClass_eq he.here hlevel
  obtain ⟨p', rest', hpieces', hp'⟩ := exists_leadClass_eq he'.here hlevel'
  rw [hpieces, hpieces'] at h
  obtain ⟨rfl, -⟩ := List.cons.inj h
  rw [← hp, ← hp']

/-- A constant is a word that is no other value. -/
theorem readAlone_constant {w : String} (he : (constant w).Everywhere Fits) :
    ReadAlone (constant w) := by
  refine .of_atom he rfl fun e' he' hlevel' hclass h => ?_
  cases e' with
  | constant w' => simpa [pieces, word] using h
  | array | arrayOf | «exists» => cases h
  | _ => cases hclass

/-- A number without a sign is told by its digits. -/
theorem readAlone_number {whole : String} {fraction : Option String}
    (he : (number false whole fraction).Everywhere Fits) :
    ReadAlone (number false whole fraction) := by
  refine .of_atom he rfl fun e' he' hlevel' hclass h => ?_
  cases e' with
  | number negative' whole' fraction' =>
    cases negative' with
    | true => cases hlevel'
    | false => exact number_injective h
  | _ => cases hclass

/-- A string literal is told by its text. -/
theorem readAlone_text {s : String} (he : (text s).Everywhere Fits) : ReadAlone (text s) := by
  refine .of_atom he rfl fun e' he' hlevel' hclass h => ?_
  cases e' with
  | text s' => simpa [pieces] using h
  | _ => cases hclass

/-- A column is told by its path. -/
theorem readAlone_column {path : List Name} (he : (column path).Everywhere Fits) :
    ReadAlone (column path) := by
  refine .of_atom he rfl fun e' he' hlevel' hclass h => ?_
  cases e' with
  | column path' => rw [pathPieces_injective h]
  | call function args => exact absurd h.symm (call_ne_column _ _ _)
  | _ => cases hclass

/-- Nothing else is written as a star. -/
theorem readAlone_all (he : all.Everywhere Fits) : ReadAlone all := by
  refine .of_atom he rfl fun e' he' hlevel' hclass h => ?_
  cases e' with
  | all => rfl
  | _ => cases hclass

/-- A call is told by its function and by its arguments, between the brackets at its end. -/
theorem readAlone_call {function : List Name} {args : List Expr}
    (he : (call function args).Everywhere Fits)
    (ih : ∀ c ∈ (call function args).children, ReadAlone c) : ReadAlone (call function args) := by
  refine .of_atom he rfl fun e' he' hlevel' hclass h => ?_
  cases e' with
  | column path => exact absurd h (call_ne_column _ _ _)
  | call function' args' =>
    -- the brackets are the last piece of either
    obtain ⟨hpath, hargs⟩ := List.append_inj' h rfl
    have hcontent : listed (piecesOf args) = listed (piecesOf args') := by simpa using hargs
    have heq : args = args' := listed_injective
      (fun a ha => ⟨he.child ha, level_pos_of_args he.here.2 a ha⟩)
      (fun a ha => ⟨he'.child ha, level_pos_of_args he'.here.2 a ha⟩) ih hcontent
    rw [pathPieces_injective hpath, heq]
  | _ => cases hclass

/-- An array is told by its items. -/
theorem readAlone_array {items : List Expr} (he : (array items).Everywhere Fits)
    (ih : ∀ c ∈ (array items).children, ReadAlone c) : ReadAlone (array items) := by
  -- the other expression is an array as well, and the lists in the brackets are the same
  refine .of_atom he rfl fun e' he' hlevel' hclass h => ?_
  cases e' with
  | array items' =>
    have hcontent : listed (piecesOf items) = listed (piecesOf items') := by
      simpa [pieces] using h
    have heq : items = items' := listed_injective
      (fun x hx => ⟨he.child hx, (he.here x hx).1⟩)
      (fun x hx => ⟨he'.child hx, (he'.here x hx).1⟩) ih hcontent
    rw [heq]
  | constant | arrayOf | «exists» => simp [pieces, word] at h
  | _ => cases hclass

/-- An array that a query fills is told by the query. -/
theorem readAlone_arrayOf {query : Expr} (he : (arrayOf query).Everywhere Fits)
    (ih : ∀ c ∈ (arrayOf query).children, ReadAlone c) : ReadAlone (arrayOf query) := by
  refine .of_atom he rfl fun e' he' hlevel' hclass h => ?_
  cases e' with
  | arrayOf query' =>
    have hcontent : query.pieces = query'.pieces := by simpa [pieces] using h
    rw [ih query List.mem_cons_self query' (he'.child List.mem_cons_self)
      (.inr (.inr ⟨he.here, he'.here⟩)) hcontent]
  | constant | array | «exists» => simp [pieces, word] at h
  | _ => cases hclass

/-- A test for rows is told by its query. -/
theorem readAlone_exists {query : Expr} (he : (Expr.exists query).Everywhere Fits)
    (ih : ∀ c ∈ (Expr.exists query).children, ReadAlone c) : ReadAlone (Expr.exists query) := by
  refine .of_atom he rfl fun e' he' hlevel' hclass h => ?_
  cases e' with
  | «exists» query' =>
    have hcontent : query.pieces = query'.pieces := by simpa [pieces] using h
    rw [ih query List.mem_cons_self query' (he'.child List.mem_cons_self)
      (.inr (.inr ⟨he.here, he'.here⟩)) hcontent]
  | constant | array | arrayOf => simp [pieces, word] at h
  | _ => cases hclass

/-- A value in parentheses is told by what stands between them. -/
theorem readAlone_paren {x : Expr} (he : (paren x).Everywhere Fits)
    (ih : ∀ c ∈ (paren x).children, ReadAlone c) : ReadAlone (paren x) := by
  refine .of_atom he rfl fun e' he' hlevel' hclass h => ?_
  cases e' with
  | paren x' =>
    have hcontent : x.pieces = x'.pieces := by simpa [pieces] using h
    rw [operand_eq he' ih List.mem_cons_self List.mem_cons_self he.here he'.here hcontent]
  | _ => cases hclass

/-! ### Sources and queries -/

/-- What separates in a join, in a table does not occur. -/
theorem rank_pos_of_table {t : TableName} (h : t.Fits) : ∀ p ∈ t.pieces, ¬ p.rank = 0 := by
  intro p hp hrank
  rw [rank_of_tableFits h p hp] at hrank
  cases hrank

/-- The words of a join are no operators. -/
theorem rank_joinKind (kind : JoinKind) : (word kind.sql).rank = 0 := by
  cases kind <;> decide

/-- A table by itself is written otherwise than a join. -/
theorem table_ne_join {t : TableName} (ht : t.Fits) (kind : JoinKind) (l r : TableName)
    (on : Expr) : (table t).pieces ≠ (join kind l r on).pieces := by
  intro h
  have hmem : word kind.sql ∈ (table t).pieces :=
    h ▸ List.mem_append_right l.pieces List.mem_cons_self
  exact rank_pos_of_table ht _ hmem (rank_joinKind kind)

/-- The source of a query is read as itself. -/
theorem readAlone_source {e : Expr} (he : e.Everywhere Fits) (hsource : e.IsSource)
    (ih : ∀ c ∈ e.children, ReadAlone c) : ReadAlone e := by
  -- what is written alike is a source too
  intro e' he' hkind h
  have hsource' : e'.IsSource := by
    obtain hlevels | hsources | hqueries := hkind
    · cases e <;> first | exact hsource.elim | exact absurd hlevels.1 (by simp [level])
    · exact hsources.2
    · cases e <;> first | exact hsource.elim | exact hqueries.1.elim
  cases e with
  | table t =>
    cases e' with
    | table t' => rw [TableName.pieces_injective he.here he'.here h]
    | join kind l r on => exact absurd h (table_ne_join he.here _ _ _ _)
    | _ => exact hsource'.elim
  | join kind l r on =>
    cases e' with
    | table t => exact absurd h.symm (table_ne_join he'.here _ _ _ _)
    -- cut at the words of the join, the two tables and the condition are the same
    | join kind' l' r' on' =>
      obtain ⟨hl, hkind, hrest⟩ := split_unique (P := (·.rank = 0)) (rank_pos_of_table he.here.1)
        (rank_pos_of_table he'.here.1) (rank_joinKind kind) (rank_joinKind kind') h
      obtain ⟨-, hrest⟩ := List.cons.inj hrest
      obtain ⟨hr, -, hon⟩ := split_unique (P := (·.rank = 0)) (rank_pos_of_table he.here.2.1)
        (rank_pos_of_table he'.here.2.1) (by decide) (by decide) hrest
      rw [TableName.pieces_injective he.here.1 he'.here.1 hl,
        TableName.pieces_injective he.here.2.1 he'.here.2.1 hr,
        operand_eq he' ih List.mem_cons_self List.mem_cons_self he.here.2.2 he'.here.2.2 hon]
      cases kind <;> cases kind' <;> simp_all [Piece.word, JoinKind.sql]
    | _ => exact hsource'.elim
  | _ => exact hsource.elim

/-- The source of a query has no filter in it. -/
theorem where_not_mem_source {e : Expr} (he : e.Everywhere Fits) (hsource : e.IsSource) :
    word "WHERE" ∉ e.pieces := by
  have hrank : (word "WHERE").rank = 0 := by decide
  cases e with
  | table t => exact fun hmem => rank_pos_of_table he.here _ hmem hrank
  | join kind l r on =>
    simp only [pieces, List.mem_append, List.mem_cons, not_or]
    refine ⟨fun hmem => rank_pos_of_table he.here.1 _ hmem hrank, ?_, by simp [word],
      fun hmem => rank_pos_of_table he.here.2.1 _ hmem hrank, by simp [word], fun hmem => ?_⟩
    -- neither the words of the join nor its condition is the keyword
    · cases kind <;> simp [word, JoinKind.sql]
    · have hle := level_le_rank (he.child List.mem_cons_self) _ hmem
      have hlevel := he.here.2.2.1
      omega
  | _ => exact hsource.elim

/-- The columns and the rest of a query are cut at its `FROM`. -/
theorem from_eq {es es' : List Expr} {rest rest' : List Piece}
    (hes : ∀ e ∈ es, e.Everywhere Fits ∧ 1 ≤ e.level)
    (hes' : ∀ e ∈ es', e.Everywhere Fits ∧ 1 ≤ e.level) (ih : ∀ e ∈ es, ReadAlone e)
    (h : word "SELECT" :: (listed (piecesOf es) ++ word "FROM" :: rest) =
      word "SELECT" :: (listed (piecesOf es') ++ word "FROM" :: rest')) :
    es = es' ∧ rest = rest' := by
  have hfront {xs : List Expr} (hxs : ∀ e ∈ xs, e.Everywhere Fits ∧ 1 ≤ e.level) :
      ∀ p ∈ listed (piecesOf xs), ¬ p = word "FROM" := by
    rintro p hp rfl
    exact not_mem_listed hxs (by decide) (by simp [word]) hp
  obtain ⟨hcolumns, -, hrest⟩ := split_unique (hfront hes) (hfront hes') rfl rfl
    (List.cons.inj h).2
  exact ⟨listed_injective hes hes' ih hcolumns, hrest⟩

/-- A query is read as itself, as its columns, source and filter are cut at its keywords. -/
theorem readAlone_query {e : Expr} (he : e.Everywhere Fits) (hquery : e.IsQuery)
    (ih : ∀ c ∈ e.children, ReadAlone c) : ReadAlone e := by
  intro e' he' hkind h
  have hquery' : e'.IsQuery := by
    obtain hlevels | hsources | hqueries := hkind
    · cases e <;> first | exact hquery.elim | exact absurd hlevels.1 (by simp [level])
    · cases e <;> first | exact hquery.elim | exact hsources.1.elim
    · exact hqueries.2
  cases e with
  | select columns source filter =>
    cases e' with
    | select columns' source' filter' =>
      have hmem {cs : List Expr} {s c : Expr} {f : Option Expr} (hc : c ∈ cs) :
          c ∈ (select cs s f).children := by
        simp [children, hc]
      have hsource := he.child (c := source) List.mem_cons_self
      have hsource' := he'.child (c := source') List.mem_cons_self
      obtain ⟨rfl, hrest⟩ := from_eq (fun c hc => ⟨he.child (hmem hc), he.here.2.1 c hc⟩)
        (fun c hc => ⟨he'.child (hmem hc), he'.here.2.1 c hc⟩) (fun c hc => ih c (hmem hc)) h
      -- the source ends at the `WHERE`, if there is one
      obtain ⟨hpieces, hfilter⟩ : source.pieces = source'.pieces ∧ filter = filter' := by
        have hfront := where_not_mem_source hsource he.here.2.2.1
        have hfront' := where_not_mem_source hsource' he'.here.2.2.1
        cases filter with
        | none =>
          cases filter' with
          | none => exact ⟨by simpa [filterPieces] using hrest, rfl⟩
          | some condition' =>
            rw [filterPieces, filterPieces, List.append_nil] at hrest
            exact absurd (hrest ▸ List.mem_append_right _ List.mem_cons_self) hfront
        | some condition =>
          cases filter' with
          | none =>
            rw [filterPieces, filterPieces, List.append_nil] at hrest
            exact absurd (hrest ▸ List.mem_append_right _ List.mem_cons_self) hfront'
          | some condition' =>
            obtain ⟨hpieces, -, hconditions⟩ := split_unique (P := (· = word "WHERE"))
              (fun p hp heq => hfront (heq ▸ hp)) (fun p hp heq => hfront' (heq ▸ hp)) rfl rfl hrest
            refine ⟨hpieces, ?_⟩
            rw [operand_eq he' ih (by simp [children]) (by simp [children])
              (he.here.2.2.2 _ rfl) (he'.here.2.2.2 _ rfl) hconditions]
      rw [ih source List.mem_cons_self source' hsource'
        (.inr (.inl ⟨he.here.2.2.1, he'.here.2.2.1⟩)) hpieces, hfilter]
    | _ => exact hquery'.elim
  | _ => exact hquery.elim

/-! ### The theorem -/

/-- Of the expressions that may stand in one place, no two are written alike. -/
theorem readAlone {e : Expr} (he : e.Everywhere Fits) : ReadAlone e := by
  induction he with
  | @intro e hfits hchildren ih =>
    have he : e.Everywhere Fits := .intro hfits hchildren
    cases e with
    | constant => exact readAlone_constant he
    | number negative =>
      cases negative with
      | true => exact readAlone_negative he
      | false => exact readAlone_number he
    | text => exact readAlone_text he
    | column => exact readAlone_column he
    | all => exact readAlone_all he
    | call => exact readAlone_call he ih
    | array => exact readAlone_array he ih
    | arrayOf => exact readAlone_arrayOf he ih
    | «exists» => exact readAlone_exists he ih
    | paren => exact readAlone_paren he ih
    | cast => exact readAlone_cast he ih
    | contains | «matches» | inList | inQuery => exact readAlone_membership he rfl ih
    | compare => exact readAlone_compare he ih
    | null => exact readAlone_null he ih
    | chain => exact readAlone_chain he ih
    | table | join => exact readAlone_source he trivial ih
    | select => exact readAlone_query he trivial ih

/-- **One reading.** A text is read as one expression at most. -/
theorem Reads.unique {text : String} {e e' : Expr} (h : Reads text e) (h' : Reads text e') :
    e = e' := by
  obtain ⟨htokens, hbinds, he⟩ := h
  obtain ⟨htokens', hbinds', he'⟩ := h'
  rw [htokens] at htokens'
  exact readAlone he e' he' (.inl ⟨hbinds.1, hbinds'.1⟩)
    (tokensOf_injective (Option.some.inj htokens'))

end RowPolicy.Sql
