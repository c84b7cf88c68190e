import RowPolicy.Json.Words

namespace RowPolicy.Json

/-!
# Contents of fields

Texts, truth values, lists, values that may be null, and instants.  Each is
read straight from the text (`Reading.as…`) or from a value (`as…`); the first
element that does not match refuses a list.
-/

/-! ### Straight from the text -/

namespace Reading

/-- A text. -/
def asText : Reading → Except Fault String
  | text s => .ok s
  | r => r.wrongType "a string"

/-- A truth value. -/
def asBool : Reading → Except Fault Bool
  | bool b => .ok b
  | r => r.wrongType "a boolean"

/-- A value that may be null. -/
def asOption {α : Type} (read : Reading → Except Fault α) : Reading → Except Fault (Option α)
  | null => .ok none
  | cut .null stop => .error (.stopped stop)
  | r => (read r).map some

/-- Elements that are all of one type, in an array. -/
def asList {α : Type} (read : Reading → Except Fault α) : Reading → Except Fault (List α)
  | array items stop => do
    let xs ← items.mapM read
    match stop with
    | none => return xs
    | some s => .error (.stopped s)
  | r => r.wrongType "a sequence"

end Reading

/-! ### In a value -/

/-- A text. -/
def asText : Json → Except Fault String
  | text s => .ok s
  | j => wrongType j "a string"

/-- A value that may be null. -/
def asOption {α : Type} (read : Json → Except Fault α) : Json → Except Fault (Option α)
  | null => .ok none
  | j => (read j).map some

/-- Elements that are all of one type, in an array. -/
def asList {α : Type} (read : Json → Except Fault α) : Json → Except Fault (List α)
  | array items => items.mapM read
  | j => wrongType j "a sequence"

/-- An instant, written as a text. -/
def asInstant : Json → Except Fault Instant
  | text s => (Instant.read s).mapError fun fault => .mismatch (.instant fault)
  | j => wrongType j "an RFC 3339 formatted date and time string"

end RowPolicy.Json
