import RowPolicy.CommandLine.Request
import RowPolicy.Manifest.Sql

namespace RowPolicy

/-!
# Replies — what the command line answers

* `Reply` — an exit code and the texts on the two outputs;
* `ReadFault` — why a manifest could not be read;
* `Request.reply` — the reply to a request, given the text of its manifest.
-/

/-- What is answered. -/
structure Reply where
  exit : UInt8
  output : String
  errors : String
  deriving DecidableEq, Repr

/-- Why a file could not be read. -/
inductive ReadFault where
  | notFound
  | notADirectory
  | isADirectory
  | other (message : String)
  deriving DecidableEq, Repr

/-- The wording of a fault, with the number that the system gives it. -/
def ReadFault.message : ReadFault → String
  | notFound => "No such file or directory (os error 2)"
  | notADirectory => "Not a directory (os error 20)"
  | isADirectory => "Is a directory (os error 21)"
  | other message => message

namespace Reply

/-- The reply to a request that is met. -/
def success (output : String) : Reply := { exit := 0, output, errors := "" }

/-- The reply to a request that cannot be met. -/
def failure (message : String) : Reply :=
  { exit := 1, output := "", errors := "Error: " ++ message ++ "\n" }

/-- How the program is called. -/
def usage : String := "Usage: pgrls [OPTIONS] <MANIFEST>\n"

/-- The reply to arguments that make no request. -/
def misuse : Reply := { exit := 2, output := "", errors := usage }

/-- The name of the program and its version. -/
def version : String := "pgrls 0.1.0\n"

/-- What the program does, and its arguments. -/
def help : String :=
  "Render a JSON policy manifest to PostgreSQL Row Level Security DDL\n\n" ++ usage ++
  "\nArguments:\n" ++
  "  <MANIFEST>  Manifest file, or `-` to read stdin\n" ++
  "\nOptions:\n" ++
  "      --include-indexes   " ++
  "Emit CREATE INDEX statements for columns the predicates filter on\n" ++
  "      --include-comments  " ++
  "Emit COMMENT ON POLICY statements for policies with a description\n" ++
  "      --enable-rls        " ++
  "Emit ALTER TABLE ... ENABLE ROW LEVEL SECURITY for every table first\n" ++
  "  -h, --help              Print help\n" ++
  "  -V, --version           Print version\n"

end Reply

/-- The reply to an invocation, given the text of its manifest or why there is
    none: the SQL with a last terminator, or one line about what went wrong. -/
def Invocation.reply (i : Invocation) (text : Except ReadFault String) : Reply :=
  match text with
  | .error fault => .failure ("failed to read " ++ i.origin.name ++ ": " ++ fault.message)
  | .ok text =>
    match Manifest.sqlOfText text i.extras i.enable with
    | .ok sql => .success (sql ++ ";\n")
    | .error failure => .failure (i.origin.name ++ ": " ++ failure.message)

/-- The reply to a request; only an invocation looks at the text. -/
def Request.reply (text : Except ReadFault String) : Request → Reply
  | help => .success Reply.help
  | version => .success Reply.version
  | render i => i.reply text

/-- The origin of the text that a request looks at. -/
def Request.origin? : Request → Option Origin
  | render i => some i.origin
  | _ => none

end RowPolicy
