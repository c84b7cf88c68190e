import RowPolicy.Predicate.Basic
import RowPolicy.Reference

namespace RowPolicy

/-!
# Qualifiers — the tables a predicate refers to

The columns of a predicate say by their qualifiers which tables they belong to.
A walk from left to right, outer before inner, collects every table once, in
the order in which they are met.  A subquery has a scope of its own and is
passed over.  The texts among a helper's parameters count as columns, since
helpers are known by name only.

* `Predicate.tables` — the tables a predicate refers to;
* `Predicate.missing` — those of them that are not at hand.
-/

/-- A table at the end of the list, unless it is there already. -/
def addTable (tables : List String) (table : String) : List String :=
  if table ∈ tables then tables else tables ++ [table]

/-- The qualifier of a column added to the tables. -/
def addQualifier (tables : List String) (reference : String) : List String :=
  match Reference.qualifier? reference with
  | some table => addTable tables table
  | none => tables

mutual

/-- The tables met so far and in an operand. -/
def Operand.walk (tables : List String) : Operand → List String
  | .predicate p => p.walk tables
  | .array items => Operand.walks tables items
  | _ => tables

/-- The tables met so far and in some operands. -/
def Operand.walks (tables : List String) : List Operand → List String
  | [] => tables
  | v :: vs => Operand.walks (v.walk tables) vs

/-- The tables met so far and in some parameters. -/
def Operand.walkParams (tables : List String) : List (String × Operand) → List String
  | [] => tables
  | p :: ps => Operand.walkParams (Operand.walkParam tables p) ps

/-- The tables met so far and in a parameter, whose text counts as a column. -/
def Operand.walkParam (tables : List String) : String × Operand → List String
  | (_, .text s) => addQualifier tables s
  | (_, v) => v.walk tables

/-- The tables met so far and in a list of values; those of a subquery do not
    count. -/
def Source.walk (tables : List String) : Source → List String
  | .values items => Operand.walks tables items
  | .subquery _ => tables

/-- The tables met so far and in an argument. -/
def Argument.walk (tables : List String) : Argument → List String
  | .column reference => addQualifier tables reference
  | .predicate p => p.walk tables

/-- The tables met so far and in some arguments. -/
def Argument.walks (tables : List String) : List Argument → List String
  | [] => tables
  | a :: as => Argument.walks (a.walk tables) as

/-- The tables met so far and in a predicate. -/
def Predicate.walk (tables : List String) : Predicate → List String
  | .compare column _ operand => operand.walk (addQualifier tables column)
  | .pattern column .. => addQualifier tables column
  | .member column _ source => source.walk (addQualifier tables column)
  | .null column _ => addQualifier tables column
  | .group _ members => Predicate.walks tables members
  | .helper _ params => Operand.walkParams tables params
  | .call _ args => Argument.walks tables args
  | .context _ => tables

/-- The tables met so far and in some predicates. -/
def Predicate.walks (tables : List String) : List Predicate → List String
  | [] => tables
  | p :: ps => Predicate.walks (p.walk tables) ps

end

namespace Predicate

/-- The tables a predicate refers to, each once, in the order of their first
    appearance. -/
def tables (p : Predicate) : List String := p.walk []

/-- The tables a predicate refers to that are not available. -/
def missing (p : Predicate) (available : List String) : List String :=
  p.tables.filter fun table => table ∉ available

end Predicate

end RowPolicy
