import RowPolicy.Policy.Sql
import RowPolicy.Proofs.Predicate.Tokens

namespace RowPolicy.Predicate

open Sql

/-!
# Predicates stay where they are put

No string in a predicate, wherever it stands, can end the quotes it is written in, close
the clause that the predicate stands in, end the statement or begin a comment.

* `contained` — the text of a predicate is contained;
* `sql_contained` — and so a clause that it stands in ends behind it.
-/

/-- The tokens of a predicate's text are those of its expression. -/
theorem tokens_sql {p : Predicate} (h : ∀ s ∈ p.raws, s = rawNow) :
    tokens? p.sql = some (Piece.tokensOf p.expr.pieces) :=
  (p.spells_sql h).tokens?

/-- A predicate that takes over only the clock is contained. -/
theorem contained {p : Predicate} (h : ∀ s ∈ p.raws, s = rawNow) : Contained p.sql.toList :=
  contained_of_tokens (tokens_sql h) (nested_tokensOf _)

/-- **Containment of predicates.** A predicate that takes over no SQL but `now()` is
    written as a contained text, and a clause that it stands in ends at the parenthesis
    behind it, whatever follows. -/
theorem sql_contained (p : Predicate) (h : ∀ s ∈ p.raws, s = rawNow) :
    Contained p.sql.toList ∧
      ∀ (keyword : String) (rest : List Char), ∃ front,
        (Policy.predicateClause keyword (some p)).toList ++ rest =
          front ++ '(' :: (p.sql.toList ++ ')' :: rest) ∧
        enclosed .outside 0 (p.sql.toList ++ ')' :: rest) = some (p.sql.toList, rest) := by
  refine ⟨contained h, fun keyword rest => ⟨(" " ++ keyword ++ " ").toList, ?_, ?_⟩⟩
  · simp [Policy.predicateClause]
  · exact (contained h).enclosed_append rest

/-- A string with quotes, a parenthesis, a statement and a comment in it. -/
theorem sql_contained_injection :
    let p : Predicate := .compare "a\"b" .eq (.array [.text "x'); DROP TABLE t; --", .raw "now()"])
    p.sql = "\"a\"\"b\" = ARRAY['x''); DROP TABLE t; --', now()]" ∧ Contained p.sql.toList := by
  intro p
  exact ⟨by decide +kernel, (sql_contained p (by decide)).1⟩

end RowPolicy.Predicate
