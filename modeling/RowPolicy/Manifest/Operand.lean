import RowPolicy.Json.Record
import RowPolicy.Manifest.Draft

namespace RowPolicy

/-!
# Operands in a manifest

A null, a truth value, a number, a text and an array stand for themselves.  An
object is told by its keys: `timestamp`, `context`, `session` with an optional
`type`, or `raw`, tried in this order.  Other keys are passed over, and a form
whose keys are repeated or whose contents do not match is skipped.

* `OperandDraft.ofJson?` — the operand that a value describes.
-/

/-- The words for the types that a setting can be cast to. -/
def Cast.words : Json.Words Cast where
  every := every
  word := sql

/-- The contexts that need no setting. -/
inductive PlainContext where
  | authUid
  | currentUser
  deriving DecidableEq, Repr

/-- The context itself. -/
def PlainContext.context : PlainContext → Context
  | authUid => .authUid
  | currentUser => .currentUser

/-- The words for contexts that need no setting. -/
def PlainContext.words : Json.Words PlainContext where
  every := [authUid, currentUser]
  word
    | authUid => "auth_uid"
    | currentUser => "current_user"

namespace OperandDraft

/-! ### Objects -/

/-- The content of a key that occurs once. -/
def sole? (fields : List (String × Json)) (key : String) : Option Json :=
  match fields.filter fun p => p.1 == key with
  | [(_, content)] => some content
  | _ => none

/-- The text of a key that occurs once. -/
def soleText? (fields : List (String × Json)) (key : String) : Option String :=
  match sole? fields key with
  | some (.text s) => some s
  | _ => none

/-- The instant of an object with a `timestamp`. -/
def timestamp? (fields : List (String × Json)) : Option OperandDraft := do
  let text ← soleText? fields "timestamp"
  let t ← (Instant.read text).toOption
  return instant t

/-- The context of an object with a `context`. -/
def plainContext? (fields : List (String × Json)) : Option OperandDraft := do
  let c ← PlainContext.words.strict? (← sole? fields "context")
  return context c.context

/-- The type that a setting is cast to; text, if there is no `type`. -/
def cast? (fields : List (String × Json)) : Option Cast :=
  if fields.any fun p => p.1 == "type" then
    (sole? fields "type").bind Cast.words.strict?
  else some .text

/-- The setting of an object with a `session`. -/
def setting? (fields : List (String × Json)) : Option OperandDraft := do
  let key ← soleText? fields "session"
  let cast ← cast? fields
  return context (.setting key cast)

/-- The SQL of an object with a `raw`. -/
def raw? (fields : List (String × Json)) : Option OperandDraft :=
  (soleText? fields "raw").map raw

/-- The operand that an object describes. -/
def ofFields? (fields : List (String × Json)) : Option OperandDraft :=
  timestamp? fields <|> plainContext? fields <|> setting? fields <|> raw? fields

/-! ### Values -/

mutual

/-- The operand that a value describes, if it has one of the forms. -/
def ofJson? : Json → Option OperandDraft
  | .null => some null
  | .bool b => some (bool b)
  | .integer n => some (integer n)
  | .decimal x => some (float x)
  | .text s => some (text s)
  | .array items => (ofItems? items).map array
  | .object fields => ofFields? fields

/-- The operands that some values describe, if all have one of the forms. -/
def ofItems? : List Json → Option (List OperandDraft)
  | [] => some []
  | j :: js => do
    let v ← ofJson? j
    return v :: (← ofItems? js)

end

/-- The operand that a value describes. -/
def ofJson (j : Json) : Except Json.Fault OperandDraft :=
  match ofJson? j with
  | some v => .ok v
  | none => .error (.mismatch (.noForm "ValueSpec"))

end OperandDraft

end RowPolicy
