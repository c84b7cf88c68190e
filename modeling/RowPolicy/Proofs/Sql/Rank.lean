import RowPolicy.Proofs.Sql.Cutting

namespace RowPolicy.Sql

/-!
# Ranks of pieces

Each piece of an expression has a rank: the level of the operator that it is, 0 if it
only separates, and the highest level if it does neither.  The pieces of a value have at
least its level as their rank, and its own operator has exactly that.  So the operator of
a value stands where the rank is lowest.

* `Piece.rank` — the rank of a piece;
* `rank_of_isPath`, `rank_of_isColumn`, `rank_of_tableFits` — names have the highest rank;
* `level_le_rank`, `exists_rank_eq` — levels seen from the pieces;
* `level_eq_of_pieces_eq` — values that are written alike have one level.
-/

/-! ### Ranks -/

/-- The rank of a word. -/
def wordRank (s : String) : Nat :=
  if s ∈ ["SELECT", "FROM", "WHERE", "INNER", "LEFT", "RIGHT", "FULL", "JOIN", "ON"] then 0
  else if s = "OR" then 1
  else if s = "AND" then 2
  else if s = "IS" then 3
  else if s ∈ ["IN", "LIKE", "ILIKE"] then 5
  else 7

/-- The rank of a run of operator characters. -/
def opRank (s : String) : Nat :=
  if s ∈ ["=", "<>", ">", ">=", "<", "<="] then 4
  else if s = "@>" then 5
  else if s = "-" ∨ s = "::" then 6
  else 7

/-- The rank of a piece. -/
def Piece.rank : Piece → Nat
  | .atom (.word s) => wordRank s
  | .atom (.op s) => opRank s
  | .atom .comma => 0
  | _ => 7

namespace Piece

/-- The rank of a word is that of its keyword. -/
@[simp] theorem rank_word (s : String) : (word s).rank = wordRank s := rfl

/-- The rank of an operator is that of its sign. -/
@[simp] theorem rank_op (s : String) : (op s).rank = opRank s := rfl

/-- A comma separates what is no value. -/
@[simp] theorem rank_comma : (Piece.atom .comma).rank = 0 := rfl

/-- A dot is part of a path. -/
@[simp] theorem rank_dot : (Piece.atom .dot).rank = 7 := rfl

@[simp] theorem rank_label (s : String) : (Piece.atom (.label s)).rank = 7 := rfl

@[simp] theorem rank_text (s : String) : (Piece.atom (.text s)).rank = 7 := rfl

/-- What is within brackets does not count outside. -/
@[simp] theorem rank_brackets (b : Bracket) (content : List Piece) :
    (Piece.brackets b content).rank = 7 := rfl

end Piece

/-- Words that are no keywords bind nothing. -/
theorem wordRank_of_not_mem {s : String} (h : s ∉ keywords) : wordRank s = 7 := by
  simp only [keywords, List.mem_cons, List.not_mem_nil, or_false, not_or] at h
  simp [wordRank, h]

/-- A name that may stand bare is no keyword. -/
theorem not_mem_keywords_of_stands {s : String} (h : (Name.bare s).stands false) :
    s ∉ keywords := by
  have hcapitals : ∀ k ∈ keywords, String.ofList (k.toList.map Char.toUpper) = k := by
    decide +kernel
  intro hs
  have hkeyword : isKeyword s = true := by
    rw [isKeyword, hcapitals s hs]
    exact List.contains_iff_mem.mpr hs
  simp [Name.stands, hkeyword] at h

/-- A text of digits begins with a digit. -/
theorem startsWithDigit_of_isDigits {s : String} (h : Expr.IsDigits s) :
    startsWithDigit s = true := by
  obtain ⟨hne, hdigits⟩ := h
  unfold startsWithDigit
  cases hs : s.toList with
  | nil => exact absurd (String.toList_eq_nil_iff.mp hs) hne
  | cons c rest =>
    rw [hs] at hdigits
    exact hdigits c List.mem_cons_self

/-- A text of digits is no keyword. -/
theorem not_mem_keywords_of_isDigits {s : String} (h : Expr.IsDigits s) : s ∉ keywords := by
  have hall : ∀ k ∈ keywords, startsWithDigit k = false := by decide +kernel
  intro hs
  have hdigit := startsWithDigit_of_isDigits h
  rw [hall s hs] at hdigit
  cases hdigit

/-- A name that is accepted binds nothing. -/
theorem rank_name {dotted : Bool} {n : Name} (h : n.stands dotted) :
    (Piece.atom (n.atom dotted)).rank = 7 := by
  cases n with
  | bare s =>
    cases dotted with
    | true => rfl
    | false => exact wordRank_of_not_mem (not_mem_keywords_of_stands h)
  | quoted s => rfl
  | star => cases h

/-- Nor does the star. -/
theorem rank_star (dotted : Bool) : (Piece.atom (Name.star.atom dotted)).rank = 7 := by
  decide +revert

/-- A path names things and separates nothing. -/
theorem rank_pathPieces {dotted : Bool} {path : List Name}
    (h : ∀ n ∈ path.head?, (Piece.atom (n.atom dotted)).rank = 7)
    (hrest : ∀ n ∈ path.tail, (Piece.atom (n.atom true)).rank = 7) :
    ∀ p ∈ pathPieces dotted path, p.rank = 7 := by
  cases path with
  | nil => simp [pathPieces]
  | cons n rest =>
    intro p hp
    -- the first name stands by itself, and every other one behind a dot
    rw [pathPieces, List.mem_cons, List.mem_flatMap] at hp
    obtain rfl | ⟨m, hm, hp⟩ := hp
    · exact h n rfl
    · rw [List.mem_cons, List.mem_singleton] at hp
      obtain rfl | rfl := hp
      · rfl
      · exact hrest m hm

/-- A path binds nothing. -/
theorem rank_of_isPath {path : List Name} (h : IsPath path) :
    ∀ p ∈ pathPieces false path, p.rank = 7 := by
  cases path with
  | nil => cases h
  | cons n rest =>
    apply rank_pathPieces
    · rintro m ⟨⟩
      exact rank_name h.1
    · exact fun m hm => rank_name (h.2 m hm)

/-- A column binds nothing, with a star or without. -/
theorem rank_of_isColumn {path : List Name} (h : IsColumn path) :
    ∀ p ∈ pathPieces false path, p.rank = 7 := by
  obtain h | ⟨table, htable, rfl⟩ := h
  · exact rank_of_isPath h
  -- a star stands behind the names of a table
  · cases table with
    | nil => cases htable
    | cons n rest =>
      apply rank_pathPieces
      · rintro m ⟨⟩
        exact rank_name htable.1
      · intro m hm
        rw [List.cons_append, List.tail_cons, List.mem_append, List.mem_singleton] at hm
        obtain hm | rfl := hm
        · exact rank_name (htable.2 m hm)
        · exact rank_star true

/-- A table has no operator in it, but perhaps the word in front of its alias. -/
theorem rank_of_tableFits {t : TableName} (h : t.Fits) : ∀ p ∈ t.pieces, p.rank = 7 := by
  intro p hp
  rw [TableName.pieces, List.mem_append] at hp
  obtain hp | hp := hp
  · exact rank_of_isPath h.1 p hp
  · simp only [Option.mem_toList, Option.map_eq_some_iff] at hp
    obtain ⟨a, ha, rfl⟩ := hp
    exact rank_name (h.2 a ha)

/-! ### Levels -/

open Sql.Expr Sql.Piece

/-- The ranks of the words and signs that operators are written with. -/
theorem rank_operators :
    opRank "-" = 6 ∧ opRank "::" = 6 ∧ opRank "@>" = 5 ∧ wordRank "IN" = 5 ∧
      (∀ m : Matching, wordRank m.sql = 5) ∧ (∀ c : Comparison, opRank c.sql = 4) ∧
      wordRank "ARRAY" = 7 ∧ wordRank "EXISTS" = 7 ∧
      ∀ w ∈ constants, wordRank w = 7 := by
  refine ⟨by decide, by decide, by decide, by decide, ?_, ?_, by decide, by decide, by decide⟩
  · rintro ⟨⟩ <;> decide
  · rintro ⟨⟩ <;> decide

/-- A connective has the rank of its chains. -/
theorem rank_connective (op : Connective) (members : List Expr) :
    (word op.sql).rank = (chain op members).level := by
  cases op <;> rfl

/-- The pieces of an expression have at least its level as their rank. -/
theorem level_le_rank {e : Expr} (h : e.Everywhere Fits) : ∀ p ∈ e.pieces, e.level ≤ p.rank := by
  obtain ⟨hminus, hcast, hcontains, hin, hmatch, hcompare, harray, hexists, hconstant⟩ :=
    rank_operators
  induction h with
  | @intro e hfits _ ih =>
    -- an operand of a looser operator keeps the bound
    have hchild {n m : Nat} {c : Expr} (hc : c ∈ e.children) (hbinds : c.Binds m) (hnm : n ≤ m) :
        ∀ p ∈ c.pieces, n ≤ p.rank := fun p hp =>
      Nat.le_trans hnm (Nat.le_trans hbinds.1 (ih c hc p hp))
    cases e with
    | constant w => simp [pieces, level, hconstant w hfits]
    | number negative whole fraction =>
      have hwhole := wordRank_of_not_mem (not_mem_keywords_of_isDigits hfits.1)
      cases negative <;> cases fraction <;> simp [pieces, level, hwhole, hminus]
    | text s => simp [pieces, level]
    | column path => exact fun p hp => Nat.le_of_eq (rank_of_isColumn hfits p hp).symm
    | all => decide
    | call function args =>
      simp only [pieces, List.forall_mem_append, List.forall_mem_singleton]
      exact ⟨fun p hp => Nat.le_of_eq (rank_of_isPath hfits.1 p hp).symm, by simp [level]⟩
    | cast e type =>
      have htype := wordRank_of_not_mem (not_mem_keywords_of_stands hfits.2)
      simp only [pieces, List.forall_mem_append, List.forall_mem_cons, level]
      exact ⟨hchild (by simp [children]) hfits.1 (by decide), by simp [hcast, htype]⟩
    | array | arrayOf | «exists» | paren => simp [pieces, level, harray, hexists]
    | contains l r =>
      simp only [pieces, List.forall_mem_append, List.forall_mem_cons, level]
      exact ⟨hchild (by simp [children]) hfits.1 (by decide), by simp [hcontains],
        hchild (by simp [children]) hfits.2 (by decide)⟩
    -- operands on both sides, the operator between them
    | «matches» m l r =>
      simp only [pieces, List.forall_mem_append, List.forall_mem_cons, level]
      exact ⟨hchild (by simp [children]) hfits.1 (by decide), by simp [hmatch],
        hchild (by simp [children]) hfits.2 (by decide)⟩
    | inList l items =>
      simp only [pieces, List.forall_mem_append, List.forall_mem_cons, level]
      exact ⟨hchild (by simp [children]) hfits.1 (by decide), by simp [hin]⟩
    | inQuery l query =>
      simp only [pieces, List.forall_mem_append, List.forall_mem_cons, level]
      exact ⟨hchild (by simp [children]) hfits.1 (by decide), by simp [hin]⟩
    | compare c l r =>
      simp only [pieces, List.forall_mem_append, List.forall_mem_cons, level]
      exact ⟨hchild (by simp [children]) hfits.1 (by decide), by simp [hcompare],
        hchild (by simp [children]) hfits.2 (by decide)⟩
    | null test e =>
      simp only [pieces, List.forall_mem_append, level]
      refine ⟨hchild (by simp [children]) hfits (by decide), ?_⟩
      cases test <;> decide
    | chain op members =>
      intro p hp
      rw [pieces, piecesOf_eq_map] at hp
      -- a connective between two members, or a piece of a member
      obtain rfl | ⟨item, hitem, hmem⟩ := mem_intercalate hp
      · exact Nat.le_of_eq (rank_connective op members).symm
      · obtain ⟨c, hc, rfl⟩ := List.mem_map.mp hitem
        refine hchild hc (hfits.2 c hc) ?_ p hmem
        cases op <;> simp [level, memberLevel]
    | table | join | select => exact fun _ _ => Nat.zero_le _

/-- The operator of an expression is among its pieces. -/
theorem exists_rank_eq {e : Expr} (hfits : e.Fits) (hpositive : 1 ≤ e.level)
    (hlevel : e.level < 7) : ∃ p ∈ e.pieces, p.rank = e.level := by
  obtain ⟨hminus, hcast, hcontains, hin, hmatch, hcompare, -⟩ := rank_operators
  cases e with
  | number negative whole fraction =>
    cases negative with
    | true => exact ⟨op "-", by simp [pieces], hminus⟩
    | false => simp [level] at hlevel
  | cast e type => exact ⟨op "::", by simp [pieces], hcast⟩
  | contains l r => exact ⟨op "@>", by simp [pieces], hcontains⟩
  | «matches» m l r => exact ⟨word m.sql, by simp [pieces], hmatch m⟩
  | inList l items => exact ⟨word "IN", by simp [pieces], hin⟩
  | inQuery l query => exact ⟨word "IN", by simp [pieces], hin⟩
  | compare c l r => exact ⟨op c.sql, by simp [pieces], hcompare c⟩
  | null test e => exact ⟨word "IS", by cases test <;> simp [pieces, nullWords], rfl⟩
  -- a chain has two members or more, so its connective is written
  | chain op members =>
    refine ⟨word op.sql, ?_, rank_connective op members⟩
    rcases members with _ | ⟨a, _ | ⟨b, rest⟩⟩
    · exact absurd hfits.1 (by simp)
    · exact absurd hfits.1 (by simp)
    · simp [pieces, piecesOf, List.intercalate_cons_cons]
  | table | join | select => simp [level] at hpositive
  | _ => simp [level] at hlevel

/-- Values that are written alike have the same level. -/
theorem level_eq_of_pieces_eq {e e' : Expr} (he : e.Everywhere Fits) (he' : e'.Everywhere Fits)
    (hvalue : 1 ≤ e.level) (hvalue' : 1 ≤ e'.level) (h : e.pieces = e'.pieces) :
    e.level = e'.level := by
  have hle {a b : Expr} (ha : a.Everywhere Fits) (hb : b.Everywhere Fits) (hpositive : 1 ≤ a.level)
      (hab : a.pieces = b.pieces) : b.level ≤ a.level := by
    -- the operator of `a` is a piece of `b`, and bounds its level
    by_cases hlevel : a.level < 7
    · obtain ⟨p, hp, hrank⟩ := exists_rank_eq ha.here hpositive hlevel
      rw [← hrank]
      exact level_le_rank hb p (hab ▸ hp)
    · have hmax : b.level ≤ 7 := by unfold level; split <;> omega
      omega
  exact Nat.le_antisymm (hle he' he hvalue' h.symm) (hle he he' hvalue h)

/-- An expression that is accepted has a piece. -/
theorem pieces_ne_nil {e : Expr} (hfits : e.Fits) : e.pieces ≠ [] := by
  cases e with
  | column path => exact pathPieces_ne_nil (IsColumn.ne_nil hfits)
  | table t => exact List.append_ne_nil_of_left_ne_nil (pathPieces_ne_nil (IsPath.ne_nil hfits.1)) _
  | chain op members =>
    obtain ⟨p, hp, -⟩ := exists_rank_eq hfits (by cases op <;> simp [level])
      (by cases op <;> simp [level])
    exact List.ne_nil_of_mem hp
  | null test => cases test <;> simp [pieces, nullWords]
  | _ => simp [pieces]

end RowPolicy.Sql
