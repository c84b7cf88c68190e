import RowPolicy.CommandLine.Reply

namespace RowPolicy

/-!
# The program

Reads the arguments, then the manifest, and writes the reply.
-/

/-- A file's bytes as text. -/
def textOfBytes (bytes : ByteArray) : Except ReadFault String :=
  match String.fromUTF8? bytes with
  | some text => .ok text
  | none => .error (.other "stream did not contain valid UTF-8")

/-- What the system says about a file that cannot be read.  The number of a
    fault comes with either sign. -/
def readFault : IO.Error → ReadFault
  | .noFileOrDirectory .. => .notFound
  | .inappropriateType _ code _ =>
    if code = 20 ∨ 0 - code = 20 then .notADirectory else .isADirectory
  | error => .other (toString error)

/-- The text that comes from an origin. -/
def load (origin : Origin) : IO (Except ReadFault String) :=
  tryCatch
    (do
      match origin with
      | .standardInput => return textOfBytes (← (← IO.getStdin).readBinToEnd)
      | .file path => return textOfBytes (← IO.FS.readBinFile path))
    fun error => return .error (readFault error)

/-- The reply to some arguments. -/
def replyTo (args : List String) : IO Reply := do
  match Request.ofArgs args with
  | none => return .misuse
  | some request =>
    match request.origin? with
    | none => return request.reply (.ok "")
    | some origin => return request.reply (← load origin)

end RowPolicy

/-- Answers a call of the program. -/
def main (args : List String) : IO UInt32 := do
  let reply ← RowPolicy.replyTo args
  (← IO.getStdout).putStr reply.output
  (← IO.getStderr).putStr reply.errors
  return reply.exit.toUInt32
