import RowPolicy.Proofs.Manifest.Sql
import RowPolicy.Proofs.Predicate.Containment
import RowPolicy.Proofs.Sql.Script

namespace RowPolicy

open Sql

/-!
# The statements of a policy

Each text that is written as a statement is one, whatever the names and the texts in it
are: it is made of pieces, and it begins and ends with characters that are no blanks.

* `Sql.Written`, `Sql.Clause` — texts that are made of pieces, and clauses behind them;
* `Sql.Written.isStatement` — when such a text is a statement;
* `Index.isStatement`, `Policy.createStatement_isStatement`,
  `Policy.commentStatement_isStatement`, `Table.enableSecurity_isStatement` — the forms.
-/

namespace Sql

/-! ### Texts made of pieces -/

/-- A text that is made of pieces. -/
def Written (s : String) : Prop := ∃ ps, Spells s (Piece.tokensOf ps)

/-- A quoted name is one piece. -/
theorem written_quoteIdentifier (name : String) : Written (quoteIdentifier name) :=
  ⟨[.atom (.name name)], spells_quoteIdentifier false name⟩

/-- A name quoted where it has to be is one piece. -/
theorem written_escapeIdentifier (name : String) : Written (escapeIdentifier name) :=
  ⟨[.atom ((identifierName name).atom false)], spells_escapeIdentifier false name⟩

/-- A plain name is one word. -/
theorem written_plain {name : String} (h : isPlainName name = true) : Written name :=
  ⟨[.atom (.word name)], spells_plain false h⟩

/-- A quoted text is one piece. -/
theorem written_quoteText (text : String) : Written (quoteText text) :=
  ⟨[.atom (.text text)], spells_quoteText text⟩

/-- A reference in quotes is made of names and dots. -/
theorem written_quoted (reference : String) : Written (Reference.quoted reference) :=
  ⟨_, spells_quoted reference⟩

/-- A predicate that takes over only the clock is made of pieces. -/
theorem written_predicate {p : Predicate} (h : ∀ s ∈ p.raws, s = rawNow) : Written p.sql :=
  ⟨_, p.spells_sql h⟩

/-- A text that is made of words. -/
def IsWords (s : String) : Prop :=
  ∃ words : List String, SpellsAll s (Piece.tokensOf (words.map Piece.word))

/-- Words in front of a text made of pieces. -/
theorem IsWords.append {a b : String} (ha : IsWords a) (hb : Written b) : Written (a ++ b) := by
  obtain ⟨words, ha⟩ := ha
  obtain ⟨ps, hb⟩ := hb
  refine ⟨words.map Piece.word ++ ps, ?_⟩
  rw [Piece.tokensOf_append]
  exact ha.append_spells hb

namespace Written

/-- Two texts made of pieces, if the second one cannot run into the first. -/
theorem append {a b : String} (ha : Written a) (hb : Written b) (hparted : Parted b) :
    Written (a ++ b) := by
  obtain ⟨ps, ha⟩ := ha
  obtain ⟨qs, hb⟩ := hb
  refine ⟨ps ++ qs, ?_⟩
  rw [Piece.tokensOf_append]
  exact Spells.append ha hb hparted

/-- Two texts with words between them. -/
theorem between {a words b : String} (ha : Written a) (hwords : IsWords words)
    (hparted : Parted words) (hb : Written b) : Written (a ++ words ++ b) := by
  rw [String.append_assoc]
  exact ha.append (hwords.append hb) (hparted.append b)

/-- A text behind another, in parentheses. -/
theorem paren {a b : String} (ha : Written a) (hb : Written b) :
    Written (a ++ " (" ++ b ++ ")") := by
  obtain ⟨ps, ha⟩ := ha
  obtain ⟨qs, hb⟩ := hb
  have hopen : SpellsAll " (" [.edge (.opening .round)] := rfl
  have hclose : SpellsAll ")" [.edge (.closing .round)] := rfl
  refine ⟨ps ++ [.brackets .round qs], ?_⟩
  have hall := ((ha.append_all hopen (parted_of_head rfl)).append_spells hb).append_all hclose
    (parted_of_head rfl)
  simpa [Piece.tokens] using hall.spells

end Written

/-- A clause that may follow: a text that is made of pieces, or nothing. -/
def Follows (s : String) : Prop := s = "" ∨ Written s ∧ Parted s

/-- A clause that may be missing, behind a text made of pieces. -/
theorem Written.follow {a b : String} (ha : Written a) (hb : Follows b) : Written (a ++ b) := by
  obtain rfl | ⟨hb, hparted⟩ := hb
  · simpa using ha
  · exact ha.append hb hparted

/-! ### Texts that are statements -/

/-- A text with a character at the beginning that is no blank. -/
def Begins (s : String) : Prop := ∃ c ∈ s.toList.head?, Text.isBlank c = false

/-- A text with a character at the end that is no blank. -/
def Ends (s : String) : Prop := ∃ c ∈ s.toList.getLast?, Text.isBlank c = false

/-- What follows a text does not change how it begins. -/
theorem Begins.append {a : String} (h : Begins a) (b : String) : Begins (a ++ b) := by
  obtain ⟨c, hc, hblank⟩ := h
  refine ⟨c, ?_, hblank⟩
  rw [String.toList_append, List.head?_append]
  exact Option.or_eq_some_iff.mpr (.inl hc)

/-- What precedes a text does not change how it ends. -/
theorem Ends.append {b : String} (h : Ends b) (a : String) : Ends (a ++ b) := by
  obtain ⟨c, hc, hblank⟩ := h
  refine ⟨c, ?_, hblank⟩
  rw [String.toList_append, List.getLast?_append]
  exact Option.or_eq_some_iff.mpr (.inl hc)

/-- A quoted text ends with its quote. -/
theorem ends_quoteText (text : String) : Ends (quoteText text) :=
  ⟨'\'', by simp [quoteText, Quoted.write, List.getLast?_cons], by decide⟩

/-- Nothing is trimmed outside two characters that are no blanks. -/
theorem trim_eq_self {s : String} (hbegins : Begins s) (hends : Ends s) :
    Text.trim s.toList = s.toList := by
  -- nothing is dropped in front, and reversed nothing behind
  have hstart {t : List Char} (h : ∃ c ∈ t.head?, Text.isBlank c = false) :
      Text.trimStart t = t := by
    obtain ⟨c, hc, hblank⟩ := h
    cases t with
    | nil => cases hc
    | cons d t =>
      cases hc
      exact List.dropWhile_cons_of_neg (by simp [hblank])
  have hreverse : ∃ c ∈ s.toList.reverse.head?, Text.isBlank c = false := by
    rwa [List.head?_reverse]
  rw [Text.trim, hstart hbegins, hstart hreverse, List.reverse_reverse]

/-- A text that is made of pieces, with no blanks at its ends, is a statement. -/
theorem Written.isStatement {s : String} (h : Written s) (hbegins : Begins s) (hends : Ends s) :
    IsStatement s := by
  obtain ⟨ps, h⟩ := h
  exact {
    contained := contained_of_tokens h.tokens? (nested_tokensOf ps)
    trimmed := trim_eq_self hbegins hends }

end Sql

/-! ### Indexes -/

namespace Index

/-- Sanitizing leaves only characters of words. -/
theorem isWordChar_sanitize (c : Char) : isWordChar (sanitize c) = true := by
  unfold sanitize
  split
  · assumption
  · decide

/-- What holds of the sixteen digits holds of the digits of every number. -/
theorem forall_hexDigits {P : Char → Prop} (h : ∀ d, d < 16 → P (Nat.digitChar d))
    {width n : Nat} : ∀ c ∈ hexDigits width n, P c := by
  induction width generalizing n with
  | zero => simp [hexDigits]
  | succ width ih =>
    rw [hexDigits, List.forall_mem_append, List.forall_mem_singleton]
    exact ⟨ih, h _ (Nat.mod_lt _ (by decide))⟩

/-- The digits of a hash are characters of words. -/
theorem isWordChar_hexDigits {width n : Nat} : ∀ c ∈ hexDigits width n, isWordChar c = true :=
  forall_hexDigits (by decide)

/-- A text of such characters is a plain name if it is not empty. -/
theorem isPlainName_ofList {s : List Char} (hne : s ≠ []) (h : ∀ c ∈ s, isWordChar c = true) :
    isPlainName (String.ofList s) = true := by
  rw [isPlainName, String.toList_ofList, Bool.and_eq_true, List.all_eq_true]
  exact ⟨by simpa using hne, h⟩

/-- The name of an index needs no quotes. -/
theorem isPlainName_name (table column : String) : isPlainName (name table column) = true := by
  have hsanitized (s : List Char) : ∀ c ∈ s.map sanitize, isWordChar c = true := by
    simp [isWordChar_sanitize]
  unfold name
  extract_lets raw bare
  split
  -- a name that sanitizing leaves as it is has no other characters
  · rename_i h
    exact isPlainName_ofList (by simp [raw]) (h.1 ▸ hsanitized raw)
  -- a name that is cut or altered: its start, an underscore and digits
  · have htake : ∀ c ∈ bare.take (maxLength - suffixLength), isWordChar c = true :=
      fun c hc => hsanitized raw c (List.mem_of_mem_take hc)
    refine isPlainName_ofList (by simp) ?_
    rw [List.forall_mem_append, List.forall_mem_cons]
    exact ⟨htake, by decide, isWordChar_hexDigits⟩

/-- A statement that creates an index is a statement, whatever the table and the column are
    called. -/
theorem statement_isStatement (table column : String) : IsStatement (statement table column) := by
  have hlead : IsWords "CREATE INDEX IF NOT EXISTS " :=
    ⟨["CREATE", "INDEX", "IF", "NOT", "EXISTS"], rfl⟩
  have hon : IsWords " ON " ∧ Parted " ON " := ⟨⟨["ON"], rfl⟩, parted_of_head rfl⟩
  -- the name needs no quotes; table and column stand in theirs
  have hname := hlead.append (written_plain (isPlainName_name table column))
  have htable := hname.between hon.1 hon.2 (written_quoted table)
  refine (htable.paren (written_quoteIdentifier column)).isStatement ?_ ?_
  · have hbegins : Begins "CREATE INDEX IF NOT EXISTS " := ⟨'C', rfl, by decide⟩
    simp only [String.append_assoc]
    exact hbegins.append _
  · have hends : Ends ")" := ⟨')', rfl, by decide⟩
    exact hends.append _

end Index

/-! ### Policies and tables -/

namespace Policy

/-- The keyword of a clause with a predicate. -/
theorem written_keyword {keyword : String} (h : keyword = "USING" ∨ keyword = "WITH CHECK") :
    Written (" " ++ keyword) := by
  obtain rfl | rfl := h
  · exact ⟨["USING"].map Piece.word, _, _, _, rfl, rfl, by simp, rfl⟩
  · exact ⟨["WITH", "CHECK"].map Piece.word, _, _, _, rfl, rfl, by simp, rfl⟩

/-- A clause with a predicate may follow, and so may a missing one. -/
theorem follows_predicate {keyword : String} (hkeyword : keyword = "USING" ∨ keyword = "WITH CHECK")
    {p : Option Predicate} (h : ∀ s ∈ Predicate.filterRaws p, s = rawNow) :
    Follows (predicateClause keyword p) := by
  cases p with
  | none => exact .inl rfl
  | some q =>
    have hparted : Parted " " := parted_of_head rfl
    exact .inr ⟨(written_keyword hkeyword).paren (written_predicate h),
      (((hparted.append _).append _).append _).append _⟩

/-- A clause with a predicate ends with its parenthesis. -/
theorem ends_predicate (keyword : String) {p : Option Predicate} (h : p.isSome) :
    Ends (predicateClause keyword p) := by
  cases p with
  | none => cases h
  | some q =>
    have hends : Ends ")" := ⟨')', rfl, by decide⟩
    exact hends.append _

/-- The role may follow, whatever it is called. -/
theorem follows_role (role : Option String) : Follows (roleClause role) := by
  cases role with
  | none => exact .inl rfl
  | some role =>
    have hto : IsWords " TO " := ⟨["TO"], rfl⟩
    exact .inr ⟨hto.append (written_escapeIdentifier role), (parted_of_head rfl).append _⟩

/-- The mark of a restrictive policy may follow. -/
theorem follows_restrictive (restrictive : Bool) :
    Follows (if restrictive then " AS RESTRICTIVE" else "") := by
  cases restrictive with
  | false => exact .inl rfl
  | true =>
    exact .inr ⟨⟨["AS", "RESTRICTIVE"].map Piece.word, _, _, _, rfl, rfl, by simp, rfl⟩,
      parted_of_head rfl⟩

/-- The texts in the predicates of a policy that are taken over as they are. -/
def raws (policy : Policy) : List String :=
  Predicate.filterRaws policy.usingExpr ++ Predicate.filterRaws policy.checkExpr

/-- A statement that creates a policy is a statement, if nothing is taken over in it. -/
theorem createStatement_isStatement {policy : Policy} (hclause : policy.HasClause)
    (hraws : ∀ s ∈ policy.raws, s = rawNow) : IsStatement policy.createStatement := by
  rw [raws, List.forall_mem_append] at hraws
  have hlead : IsWords "CREATE POLICY " := ⟨["CREATE", "POLICY"], rfl⟩
  have hon : IsWords " ON " ∧ Parted " ON " := ⟨⟨["ON"], rfl⟩, parted_of_head rfl⟩
  -- the words between the parts end with spaces, so no two parts run together
  have hfor : IsWords " FOR " ∧ Parted " FOR " := ⟨⟨["FOR"], rfl⟩, parted_of_head rfl⟩
  have hcommand : Written policy.command.sql := by
    cases policy.command <;> exact written_plain (by decide)
  have hname := hlead.append (written_quoteIdentifier policy.name)
  have htable := hname.between hon.1 hon.2 (written_quoted policy.table)
  have hkind := (htable.follow (follows_restrictive policy.restrictive)).between hfor.1 hfor.2
    hcommand
  have hclauses := ((hkind.follow (follows_role policy.role)).follow
    (follows_predicate (.inl rfl) hraws.1)).follow (follows_predicate (.inr rfl) hraws.2)
  refine hclauses.isStatement ?_ ?_
  · have hbegins : Begins "CREATE POLICY " := ⟨'C', rfl, by decide⟩
    simp only [String.append_assoc]
    exact hbegins.append _
  · cases hcheck : policy.checkExpr with
    | some p => exact (ends_predicate _ rfl).append _
    -- then the `USING` clause is there, and it comes last
    | none =>
      have husing : policy.usingExpr.isSome := by simpa [HasClause, hcheck] using hclause
      rw [show predicateClause "WITH CHECK" none = "" from rfl, String.append_empty]
      exact (ends_predicate _ husing).append _

/-- A comment on a policy is a statement, whatever it says. -/
theorem commentStatement_isStatement (policy : Policy) (description : String) :
    IsStatement (policy.commentStatement description) := by
  have hlead : IsWords "COMMENT ON POLICY " := ⟨["COMMENT", "ON", "POLICY"], rfl⟩
  have hon : IsWords " ON " ∧ Parted " ON " := ⟨⟨["ON"], rfl⟩, parted_of_head rfl⟩
  have his : IsWords " IS " ∧ Parted " IS " := ⟨⟨["IS"], rfl⟩, parted_of_head rfl⟩
  -- the description is one quoted text, and the statement ends with it
  have hname := hlead.append (written_quoteIdentifier policy.name)
  have htable := hname.between hon.1 hon.2 (written_quoted policy.table)
  refine (htable.between his.1 his.2 (written_quoteText description)).isStatement ?_ ?_
  · have hbegins : Begins "COMMENT ON POLICY " := ⟨'C', rfl, by decide⟩
    simp only [String.append_assoc]
    exact hbegins.append _
  · exact (ends_quoteText description).append _

end Policy

/-- Enabling row level security is a statement, whatever the table is called. -/
theorem Table.enableSecurity_isStatement (table : String) :
    IsStatement (Table.enableSecurity table) := by
  have hlead : IsWords "ALTER TABLE " := ⟨["ALTER", "TABLE"], rfl⟩
  have htail : Written " ENABLE ROW LEVEL SECURITY" :=
    ⟨["ENABLE", "ROW", "LEVEL", "SECURITY"].map Piece.word, _, _, _, rfl, rfl, by simp, rfl⟩
  refine ((hlead.append (written_quoted table)).append htail (parted_of_head rfl)).isStatement ?_ ?_
  · have hbegins : Begins "ALTER TABLE " := ⟨'A', rfl, by decide⟩
    exact (hbegins.append _).append _
  · have hends : Ends " ENABLE ROW LEVEL SECURITY" := ⟨'Y', rfl, by decide⟩
    exact hends.append _

end RowPolicy
