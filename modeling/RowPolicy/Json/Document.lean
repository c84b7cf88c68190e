import RowPolicy.Json.Mismatch
import RowPolicy.Json.Number
import RowPolicy.Json.Text

namespace RowPolicy.Json

/-!
# Documents — JSON text to readings

* `Reading.ofChars` — the value at the start of a text;
* `Document.ofText`, `Document.decode` — a whole text, behind whose value
  nothing may follow.

Arrays and objects are read by loops that take the reader of their elements as
a parameter, so that the depth of nesting is bounded by recursion on it.  How
numerals are evaluated is a parameter as well.
-/

/-- Blanks between the parts of a text. -/
def isSpace (c : Char) : Bool := c = ' ' || c = '\t' || c = '\n' || c = '\r'

/-- A text without the blanks in front of it. -/
def skipSpace (s : List Char) : List Char := s.dropWhile isSpace

/-- A value, and the text behind it if it is complete. -/
abbrev Outcome := Reading × Option (List Char)

/-- A reader of values. -/
abbrev Reader := List Char → Outcome

namespace Reading

/-- A value that breaks off. -/
def broken (begun : Beginning) (stop : Stop) : Outcome := (cut begun stop, none)

/-! ### Words, texts and numbers -/

/-- What is left of a text behind a word. -/
def afterWord : List Char → List Char → Except Stop (List Char)
  | [], s => .ok s
  | _ :: _, [] => .error .truncated
  | c :: word, d :: s => if c = d then afterWord word s else .error .malformed

/-- A value that is written as a word. -/
def word (begun : Beginning) (letters : String) (value : Reading) (s : List Char) : Outcome :=
  match afterWord letters.toList s with
  | .ok rest => (value, some rest)
  | .error stop => broken begun stop

/-- A text, from behind its opening mark. -/
def quoted (s : List Char) : Outcome :=
  match Text.read .plain s with
  | .ok (chars, rest) => (.text (String.ofList chars), some rest)
  | .error stop => broken .text stop

/-- A number, whose numeral is evaluated by `value?`. -/
def number (value? : Numeral → Option Reading) (s : List Char) : Outcome :=
  match Numeral.scan s with
  | .ok (numeral, rest) =>
    match value? numeral with
    | some value => (value, some rest)
    | none => broken .other .malformed
  | .error stop => broken .other stop

/-! ### Arrays -/

/-- The elements from the next one on, and the text behind the array.  `fuel`
    exceeds the number of elements. -/
def elements (element : Reader) : Nat → List Char →
    List Reading × Option Stop × Option (List Char)
  | 0, _ => ([], some .malformed, none)
  | fuel + 1, s =>
    match element s with
    | (value, none) => ([value], some .malformed, none)
    | (value, some rest) =>
      match skipSpace rest with
      | [] => ([value], some .truncated, none)
      | c :: rest =>
        if c = ']' then ([value], none, some rest)
        else if c = ',' then
          let (values, stop, rest) := elements element fuel rest
          (value :: values, stop, rest)
        else ([value], some .malformed, none)

/-- An array, from behind its opening bracket. -/
def arrayBody (element : Reader) (s : List Char) : Outcome :=
  match skipSpace s with
  | [] => (.array [] (some .truncated), none)
  | c :: rest =>
    if c = ']' then (.array [] none, some rest)
    else
      let (values, stop, rest) := elements element (s.length + 1) (c :: rest)
      (.array values stop, rest)

/-! ### Objects -/

/-- The value of a field, from behind its key. -/
def fieldValue (element : Reader) (s : List Char) : Outcome :=
  match skipSpace s with
  | [] => broken .nothing .truncated
  | c :: rest => if c = ':' then element rest else broken .nothing .malformed

/-- The fields from the next one on, and the text behind the object.  `fuel`
    exceeds the number of fields. -/
def members (element : Reader) : Nat → List Char →
    List (String × Reading) × Ending × Option (List Char)
  | 0, _ => ([], .cut .malformed, none)
  | fuel + 1, s =>
    match skipSpace s with
    | '"' :: s =>
      match Text.read .plain s with
      | .error stop => ([], .noKey stop, none)
      | .ok (key, s) =>
        let key := String.ofList key
        match fieldValue element s with
        | (value, none) => ([(key, value)], .cut .malformed, none)
        | (value, some rest) =>
          match skipSpace rest with
          | [] => ([(key, value)], .cut .truncated, none)
          | c :: rest =>
            if c = '\x7d' then ([(key, value)], .closed, some rest)
            else if c = ',' then
              let (fields, ending, rest) := members element fuel rest
              ((key, value) :: fields, ending, rest)
            else ([(key, value)], .cut .malformed, none)
    | [] => ([], .noKey .truncated, none)
    | _ => ([], .noKey .malformed, none)

/-- An object, from behind its opening brace. -/
def objectBody (element : Reader) (s : List Char) : Outcome :=
  match skipSpace s with
  | '\x7d' :: rest => (.object [] .closed, some rest)
  | s =>
    let (fields, ending, rest) := members element (s.length + 1) s
    (.object fields ending, rest)

/-! ### Values -/

/-- The greatest depth to which arrays and objects may be nested. -/
def maxDepth : Nat := 127

/-- A value at the start of a text, with arrays and objects nested no deeper
    than `depth`. -/
def ofChars (value? : Numeral → Option Reading) (depth : Nat) (s : List Char) : Outcome :=
  match skipSpace s with
  | [] => broken .nothing .truncated
  | c :: rest =>
    if c = '"' then quoted rest
    else if c = 'n' then word .null "ull" .null rest
    else if c = 't' then word .other "rue" (.bool true) rest
    else if c = 'f' then word .other "alse" (.bool false) rest
    else if c = '-' ∨ c.isDigit then number value? (c :: rest)
    else if c = '[' then
      match depth with
      | 0 => (.array [] (some .malformed), none)
      | depth + 1 => arrayBody (ofChars value? depth) rest
    else if c = '\x7b' then
      match depth with
      | 0 => (.object [] (.cut .malformed), none)
      | depth + 1 => objectBody (ofChars value? depth) rest
    else broken .nothing .malformed

end Reading

/-! ### Documents -/

/-- A text read as one JSON value. -/
structure Document where
  root : Reading
  /-- Whether anything but blanks stands behind the value. -/
  trailing : Bool

/-- The document that a text holds, where `value?` evaluates numerals. -/
def Document.ofTextWith (value? : Numeral → Option Reading) (text : String) : Document :=
  match Reading.ofChars value? Reading.maxDepth text.toList with
  | (root, none) => { root, trailing := false }
  | (root, some rest) => { root, trailing := !(skipSpace rest).isEmpty }

/-- The document that a text holds. -/
def Document.ofText (text : String) : Document := ofTextWith Numeral.value? text

example : (Reading.ofChars Numeral.value? 1 " [1, \"a\"] ".toList).2 = some [' '] := by
  decide +kernel

example : (Reading.ofChars Numeral.value? 1 "[[]]".toList).2 = none := by decide +kernel

/-- What a document describes; nothing may stand behind its value. -/
def Document.decode {α : Type} (document : Document) (read : Reading → Except Fault α) :
    Except Fault α := do
  let a ← read document.root
  if document.trailing then .error (.stopped .malformed) else return a

end RowPolicy.Json
