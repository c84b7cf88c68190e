namespace RowPolicy

/-!
# Joined text — pieces with a separator between neighbours

`joined` writes lists of columns, arguments, members and statements.  Nothing
is written for no pieces, and no separator stands in front or at the end.
-/

/-- The pieces in order, with `sep` between each two neighbours. -/
def joined (sep : String) : List String → String
  | [] => ""
  | [s] => s
  | s :: t :: rest => s ++ sep ++ joined sep (t :: rest)

@[simp] theorem joined_nil (sep : String) : joined sep [] = "" := rfl

@[simp] theorem joined_singleton (sep s : String) : joined sep [s] = s := rfl

theorem joined_cons_cons (sep s t : String) (rest : List String) :
    joined sep (s :: t :: rest) = s ++ sep ++ joined sep (t :: rest) := rfl

example : joined ", " ["a", "b", "c"] = "a, b, c" := by decide

end RowPolicy
