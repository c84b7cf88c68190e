import RowPolicy.Predicate.Basic

namespace RowPolicy

/-!
# Equality of predicates

Two predicates are the same if they are built alike from the same parts.
Floats are compared as numbers, so that the two zeros are the same and NaN
differs from itself; hence this relation is no lawful equality.
-/

mutual

/-- Whether two operands are the same. -/
def Operand.same : Operand → Operand → Bool
  | .null, .null => true
  | .bool a, .bool b => a == b
  | .int a, .int b => a == b
  | .float a, .float b => a == b
  | .text a, .text b => a == b
  | .instant a, .instant b => a == b
  | .array a, .array b => Operand.sames a b
  | .raw a, .raw b => a == b
  | .predicate a, .predicate b => a.same b
  | _, _ => false

/-- Whether two lists of operands are the same. -/
def Operand.sames : List Operand → List Operand → Bool
  | [], [] => true
  | a :: as, b :: bs => a.same b && Operand.sames as bs
  | _, _ => false

/-- Whether two lists of parameters are the same. -/
def Operand.sameParams : List (String × Operand) → List (String × Operand) → Bool
  | [], [] => true
  | a :: as, b :: bs => Operand.sameParam a b && Operand.sameParams as bs
  | _, _ => false

/-- Whether two parameters are the same. -/
def Operand.sameParam : String × Operand → String × Operand → Bool
  | (k, a), (l, b) => k == l && a.same b

/-- Whether two sources are the same. -/
def Source.same : Source → Source → Bool
  | .values a, .values b => Operand.sames a b
  | .subquery a, .subquery b => a.same b
  | _, _ => false

/-- Whether two arguments are the same. -/
def Argument.same : Argument → Argument → Bool
  | .column a, .column b => a == b
  | .predicate a, .predicate b => a.same b
  | _, _ => false

/-- Whether two lists of arguments are the same. -/
def Argument.sames : List Argument → List Argument → Bool
  | [], [] => true
  | a :: as, b :: bs => a.same b && Argument.sames as bs
  | _, _ => false

/-- Whether two predicates are the same. -/
def Predicate.same : Predicate → Predicate → Bool
  | .compare a o v, .compare b o' v' => a == b && o == o' && v.same v'
  | .pattern a o v, .pattern b o' v' => a == b && o == o' && v == v'
  | .member a o v, .member b o' v' => a == b && o == o' && v.same v'
  | .null a o, .null b o' => a == b && o == o'
  | .group o ps, .group o' ps' => o == o' && Predicate.sames ps ps'
  | .helper a ps, .helper b ps' => a == b && Operand.sameParams ps ps'
  | .call a as, .call b as' => a == b && Argument.sames as as'
  | .context a, .context b => a == b
  | _, _ => false

/-- Whether two lists of predicates are the same. -/
def Predicate.sames : List Predicate → List Predicate → Bool
  | [], [] => true
  | a :: as, b :: bs => a.same b && Predicate.sames as bs
  | _, _ => false

/-- Whether two filters are the same or both missing. -/
def Predicate.sameOption : Option Predicate → Option Predicate → Bool
  | none, none => true
  | some a, some b => a.same b
  | _, _ => false

/-- Whether two joins are the same or both missing. -/
def Join.sameOption : Option Join → Option Join → Bool
  | none, none => true
  | some a, some b => a.same b
  | _, _ => false

/-- Whether two joins are the same. -/
def Join.same : Join → Join → Bool
  | ⟨kind, table, name, on⟩, ⟨kind', table', name', on'⟩ =>
    kind == kind' && table == table' && name == name' && on.same on'

/-- Whether two subqueries are the same. -/
def Subquery.same : Subquery → Subquery → Bool
  | ⟨table, name, columns, join, filter⟩, ⟨table', name', columns', join', filter'⟩ =>
    table == table' && name == name' && columns == columns' && Join.sameOption join join' &&
      Predicate.sameOption filter filter'

end

end RowPolicy
