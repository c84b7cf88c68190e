import RowPolicy.Text.Blank

namespace RowPolicy

/-!
# Commands — the statements a policy applies to

A policy is made for one command or for all of them.  The database checks the
rows a command finds against the `USING` expression and the rows it writes
against the `WITH CHECK` expression; which of the two it evaluates depends on
the command alone.
-/

/-- The command a policy is made for. -/
inductive Command where
  | select
  | insert
  | update
  | delete
  | all
  deriving DecidableEq, Repr

namespace Command

/-- The keyword of a command. -/
def sql : Command → String
  | select => "SELECT"
  | insert => "INSERT"
  | update => "UPDATE"
  | delete => "DELETE"
  | all => "ALL"

/-- All commands, in the order in which messages list them. -/
def every : List Command := [select, insert, update, delete, all]

/-- Whether the command finds rows, so that `USING` is evaluated. -/
def usesUsing : Command → Bool
  | insert => false
  | _ => true

/-- Whether the command writes rows, so that `WITH CHECK` is evaluated. -/
def usesCheck : Command → Bool
  | insert | update | all => true
  | select | delete => false

/-- A text that names no command. -/
structure Unknown where
  /-- The text as it was given. -/
  text : String
  deriving DecidableEq, Repr

/-- The message for a text that names no command. -/
def Unknown.message (fault : Unknown) : String :=
  "unknown policy operation '" ++ fault.text ++
    "' (expected SELECT, INSERT, UPDATE, DELETE or ALL)"

/-- The command a text names, in any case of ASCII letters and with blanks
    around it. -/
def ofText (text : String) : Except Unknown Command :=
  let word := String.ofList ((Text.trim text.toList).map Char.toUpper)
  match every.find? fun c => c.sql == word with
  | some c => .ok c
  | none => .error ⟨text⟩

end Command

end RowPolicy
