import RowPolicy.Proofs.Sql.Containment

namespace RowPolicy.Sql

/-!
# Pieces — tokens grouped by their brackets

What stands between two brackets belongs together.  Tokens with nested brackets are the
same as pieces, where a pair of brackets with its content is one piece:

* `Piece`, `Piece.tokensOf` — pieces and their tokens;
* `nest_tokensOf` — the brackets of pieces are nested;
* `group`, `group_tokensOf` — the pieces of tokens, by a stack of what stands in front of
  the brackets that are open;
* `tokensOf_injective` — no two lists of pieces have the same tokens.
-/

/-- A token that is no bracket, or a pair of brackets with its content. -/
inductive Piece where
  | atom (a : Atom)
  | brackets (b : Bracket) (content : List Piece)

namespace Piece

mutual

/-- The tokens of a piece. -/
def tokens : Piece → List Token
  | atom a => [.atom a]
  | brackets b content => .edge (.opening b) :: (tokensOf content ++ [.edge (.closing b)])

/-- The tokens of some pieces. -/
def tokensOf : List Piece → List Token
  | [] => []
  | p :: ps => p.tokens ++ tokensOf ps

end

@[simp] theorem tokensOf_nil : tokensOf [] = [] := rfl

@[simp] theorem tokensOf_cons (p : Piece) (ps : List Piece) :
    tokensOf (p :: ps) = p.tokens ++ tokensOf ps := rfl

@[simp] theorem tokensOf_append (ps qs : List Piece) :
    tokensOf (ps ++ qs) = tokensOf ps ++ tokensOf qs := by
  induction ps with
  | nil => rfl
  | cons p ps ih => rw [List.cons_append, tokensOf_cons, tokensOf_cons, ih, List.append_assoc]

/-- Lists of pieces with a separator have the tokens of each, with those of the separator between
    them. -/
theorem tokensOf_intercalate (sep : List Piece) (items : List (List Piece)) :
    tokensOf (sep.intercalate items) = (tokensOf sep).intercalate (items.map tokensOf) := by
  induction items with
  | nil => rfl
  | cons item items ih =>
    cases items with
    | nil => simp
    | cons => simp [List.intercalate_cons_cons, ih]

end Piece

/-! ### Brackets -/

open Piece

mutual

/-- A piece closes the brackets that it opens. -/
theorem nest_tokens (due : List Bracket) (es : List Edge) :
    (p : Piece) → nest due (tokenEdges p.tokens ++ es) = nest due es
  | .atom a => rfl
  | .brackets b content => by
    have hcontent := nest_tokensOf (b :: due) (.closing b :: es) content
    rw [show tokenEdges (Piece.brackets b content).tokens =
      .opening b :: (tokenEdges (tokensOf content) ++ [.closing b]) by
        simp [tokens, tokenEdges, Token.edge?]]
    simp [nest, hcontent]

/-- Pieces close the brackets that they open. -/
theorem nest_tokensOf (due : List Bracket) (es : List Edge) :
    (ps : List Piece) → nest due (tokenEdges (tokensOf ps) ++ es) = nest due es
  | [] => rfl
  | p :: ps => by
    rw [tokensOf_cons, tokenEdges, List.filterMap_append, List.append_assoc]
    exact (nest_tokens due _ p).trans (nest_tokensOf due es ps)

end

/-- The brackets of pieces close in order. -/
theorem nested_tokensOf (ps : List Piece) : nest [] (tokenEdges (tokensOf ps)) = some [] := by
  have hnest := nest_tokensOf [] [] ps
  rwa [List.append_nil] at hnest

/-! ### Grouping -/

/-- The pieces of some tokens behind the pieces `done`.  Each bracket that is open stands
    in `outer`, the last one first, with the pieces in front of it. -/
def group : (outer : List (Bracket × List Piece)) → (done : List Piece) → List Token →
    Option (List Piece)
  | [], done, [] => some done
  | _ :: _, _, [] => none
  | outer, done, .atom a :: ts => group outer (done ++ [.atom a]) ts
  | outer, done, .edge (.opening b) :: ts => group ((b, done) :: outer) [] ts
  | [], _, .edge (.closing _) :: _ => none
  | (d, before) :: outer, done, .edge (.closing b) :: ts =>
    if d = b then group outer (before ++ [.brackets b done]) ts else none

mutual

/-- A piece is put together again from its tokens. -/
theorem group_tokens (outer : List (Bracket × List Piece)) (done : List Piece) (ts : List Token) :
    (p : Piece) → group outer done (p.tokens ++ ts) = group outer (done ++ [p]) ts
  | .atom a => by
    rw [tokens, List.singleton_append, group]
  | .brackets b content => by
    rw [tokens, List.cons_append, List.append_assoc, group, group_tokensOf, List.nil_append,
      List.singleton_append, group, if_pos rfl]

/-- The tokens of pieces are grouped into these pieces. -/
theorem group_tokensOf (outer : List (Bracket × List Piece)) (done : List Piece)
    (ts : List Token) :
    (ps : List Piece) → group outer done (tokensOf ps ++ ts) = group outer (done ++ ps) ts
  | [] => by
    rw [tokensOf_nil, List.nil_append, List.append_nil]
  | p :: ps => by
    rw [tokensOf_cons, List.append_assoc, group_tokens, group_tokensOf, List.append_assoc,
      List.singleton_append]

end

/-- Pieces can be told from their tokens. -/
theorem tokensOf_injective {ps qs : List Piece} (h : tokensOf ps = tokensOf qs) : ps = qs := by
  -- grouping undoes `tokensOf`
  have hgroup (rs : List Piece) : group [] [] (tokensOf rs) = some rs := by
    have hrs := group_tokensOf [] [] [] rs
    rwa [List.append_nil, List.nil_append, group] at hrs
  have hps := hgroup ps
  rw [h, hgroup qs] at hps
  exact (Option.some.inj hps).symm

end RowPolicy.Sql
