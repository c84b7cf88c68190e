import RowPolicy.Policy.Sql

namespace RowPolicy

/-!
# Requests — what the command line asks for

The arguments are read from left to right, and the first one that asks for help
or for the version ends the reading.  Flags may stand on either side of the one
operand, which names the manifest; behind `--` everything is an operand.

* `Flag`, `Invocation`, `Request` — what can be asked for;
* `Request.ofArgs` — the request of some arguments, if they make one.
-/

/-- Where a manifest comes from. -/
inductive Origin where
  | standardInput
  | file (path : String)
  deriving DecidableEq, Repr

namespace Origin

/-- The origin that an operand names. -/
def ofOperand (operand : String) : Origin :=
  if operand = "-" then standardInput else file operand

/-- How messages call an origin. -/
def name : Origin → String
  | standardInput => "<stdin>"
  | file path => path

end Origin

/-- A switch for statements that are left out otherwise. -/
inductive Flag where
  | indexes
  | comments
  | enable
  deriving DecidableEq, Repr

namespace Flag

/-- How a flag is written. -/
def word : Flag → String
  | indexes => "--include-indexes"
  | comments => "--include-comments"
  | enable => "--enable-rls"

/-- All flags. -/
def every : List Flag := [indexes, comments, enable]

/-- The flag that an argument is. -/
def ofArg? (arg : String) : Option Flag := every.find? fun f => f.word == arg

end Flag

/-- A manifest to be rendered, and the flags that are set. -/
structure Invocation where
  origin : Origin
  flags : List Flag
  deriving DecidableEq, Repr

namespace Invocation

/-- The extra statements that are asked for. -/
def extras (i : Invocation) : Extras :=
  { indexes := Flag.indexes ∈ i.flags, comments := Flag.comments ∈ i.flags }

/-- Whether statements that enable row level security are asked for. -/
def enable (i : Invocation) : Bool := Flag.enable ∈ i.flags

end Invocation

/-- What the command line asks for. -/
inductive Request where
  | help
  | version
  | render (i : Invocation)
  deriving DecidableEq, Repr

namespace Request

/-- Whether an argument is an operand even in front of `--`. -/
def isOperand (arg : String) : Bool := arg == "-" || !arg.startsWith "-"

/-- The request of the arguments, given the operand and the flags in front of
    them, and whether options have ended.  A second operand, an unknown option
    and a repeated flag are no part of a request. -/
def read (origin : Option Origin) (flags : List Flag) (ended : Bool) :
    List String → Option Request
  | [] => origin.map fun origin => render { origin, flags }
  | arg :: rest =>
    if ended || isOperand arg then
      match origin with
      | none => read (some (.ofOperand arg)) flags ended rest
      | some _ => none
    else if arg = "--" then read origin flags true rest
    else if arg = "--help" || arg.startsWith "-h" then some help
    else if arg = "--version" || arg.startsWith "-V" then some version
    else match Flag.ofArg? arg with
      | none => none
      | some f => if f ∈ flags then none else read origin (flags ++ [f]) ended rest

/-- The request that some arguments make. -/
def ofArgs (args : List String) : Option Request := read none [] false args

example : ofArgs ["-", "--enable-rls"] =
    some (render { origin := .standardInput, flags := [.enable] }) := by decide +kernel

example : ofArgs ["-", "--enable-rls", "--enable-rls"] = none := by decide +kernel

end Request

end RowPolicy
