import RowPolicy.Json.Mismatch

namespace RowPolicy.Json

/-!
# Words — types whose values are written as one word each

A word stands alone, or is the only key of an object with no content.  Straight
from the text, anything else is no JSON that could be continued; in a value
that is complete it is a mismatch.

* `Words` — a type and its words;
* `Words.value` — the value that a word names;
* `Words.ofReading`, `Words.ofJson` — a word in a text and in a value.
-/

/-- The values of a type, in the order in which messages list them, and their
    words. -/
structure Words (α : Type) where
  every : List α
  word : α → String

namespace Words

variable {α : Type}

/-- The value that a word names, if any. -/
def value? (w : Words α) (word : String) : Option α := w.every.find? fun a => w.word a == word

/-- The value that a word names. -/
def value (w : Words α) (word : String) : Except Fault α :=
  match w.value? word with
  | some a => .ok a
  | none => .error (.mismatch (.unknownWord word (w.every.map w.word)))

/-- A value as JSON text; words need no escapes. -/
def text (w : Words α) (a : α) : String := "\"" ++ w.word a ++ "\""

/-! ### Straight from the text -/

/-- Nothing, written as null. -/
def nothing : Reading → Except Fault Unit
  | .null => .ok ()
  | r => r.wrongType "unit"

/-- The key of an object that stands for a word is followed by nothing, and by
    no other key. -/
def objectOfReading (w : Words α) : List (String × Reading) → Ending → Except Fault α
  | [], .closed => .error (.stopped .malformed)
  | [], .cut stop | [], .noKey stop => .error (.stopped stop)
  | (word, content) :: rest, ending => do
    let a ← w.value word
    nothing content
    match rest, ending with
    | [], .closed => return a
    | [], .cut stop => .error (.stopped stop)
    | _, _ => .error (.stopped .malformed)

/-- A word in a text. -/
def ofReading (w : Words α) : Reading → Except Fault α
  | .text word => w.value word
  | .object fields ending => w.objectOfReading fields ending
  | .cut .nothing stop | .cut .text stop => .error (.stopped stop)
  | _ => .error (.stopped .malformed)

/-! ### In a value -/

/-- Nothing, written as null or as an object without fields. -/
def emptyContent : Json → Except Fault Unit
  | .null | .object [] => .ok ()
  | j => wrongType j "unit"

/-- A word in a value. -/
def ofJson (w : Words α) : Json → Except Fault α
  | .text word => w.value word
  | .object [(word, content)] => do
    let a ← w.value word
    emptyContent content
    return a
  | .object _ => .error (.mismatch .notOneKey)
  | j => wrongType j "string or map"

/-- A word in a value, where only null counts as no content. -/
def strict? (w : Words α) : Json → Option α
  | .text word => w.value? word
  | .object [(word, .null)] => w.value? word
  | _ => none

end Words

end RowPolicy.Json
