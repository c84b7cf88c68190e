import RowPolicy.Policy.Sql
import RowPolicy.Text.Blank

namespace RowPolicy

/-!
# Groups of policies

A group is a list of policies under a name, rendered together.  Its description
becomes one comment line in front.  The line may hold no control character,
since some of them end a line.

* `PolicyGroup.tables` — the protected tables;
* `controlFree`, `commentLine` — a description as a comment;
* `PolicyGroup.sql` — the text of a group.
-/

/-- Each element where it stands first, in order. -/
def firstOccurrences (xs : List String) : List String :=
  xs.foldl (fun seen x => if x ∈ seen then seen else seen ++ [x]) []

/-- What stands between two statements: a terminator and an empty line. -/
def statementSeparator : String := ";\n\n"

/-- Policies that belong together. -/
structure PolicyGroup where
  name : String
  policies : List Policy
  description : Option String

/-- The pieces of a text between its control characters: the first piece, and
    those behind it. -/
def splitControl : List Char → List Char × List (List Char)
  | [] => ([], [])
  | c :: s =>
    let (first, rest) := splitControl s
    if Text.isControl c then ([], first :: rest) else (c :: first, rest)

/-- A text without its control characters, in pieces where they stood, empty
    pieces left out. -/
def controlFree (text : String) : List String :=
  let (first, rest) := splitControl text.toList
  ((first :: rest).filter fun piece => !piece.isEmpty).map String.ofList

/-- A description as one comment line. -/
def commentLine (description : String) : String :=
  "-- " ++ joined " " (controlFree description) ++ "\n"

namespace PolicyGroup

/-- The tables that the policies protect, each once. -/
def tables (group : PolicyGroup) : List String :=
  firstOccurrences (group.policies.map (·.table))

/-- The text of a group, without a last terminator; the first policy without a
    predicate makes it fail. -/
def sql (group : PolicyGroup) (extras : Extras) : Except Fault String := do
  let statements ← group.policies.mapM fun policy => policy.sql extras
  return (group.description.map commentLine).getD "" ++ joined statementSeparator statements

end PolicyGroup

end RowPolicy
