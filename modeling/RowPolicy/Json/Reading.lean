import RowPolicy.Json.Basic

namespace RowPolicy.Json

/-!
# Readings — JSON text, as far as it can be read

Text is read from left to right and may break off: a character that cannot
stand where it stands, or an end too early.  What was read before still counts,
since whoever looks for certain fields may meet a fault of their own there
first.

* `Stop` — why a text breaks off;
* `Reading` — a value that may break off inside;
* `Reading.whole` — the value, if nothing breaks off.
-/

/-- Why a text is not JSON. -/
inductive Stop where
  /-- A character, a number or a depth that is not admitted. -/
  | malformed
  /-- The text ends inside a value. -/
  | truncated
  deriving DecidableEq, Repr

/-- What a value that breaks off had begun as. -/
inductive Beginning where
  | nothing
  | text
  | null
  /-- A number, or one of the two truth values. -/
  | other
  deriving DecidableEq, Repr

/-- What stands behind the last field of an object. -/
inductive Ending where
  | closed
  /-- Neither a comma nor the end of the object. -/
  | cut (stop : Stop)
  /-- No key where one has to stand. -/
  | noKey (stop : Stop)

/-- Refuses an object that is not closed. -/
def Ending.check : Ending → Except Stop Unit
  | closed => .ok ()
  | cut stop | noKey stop => .error stop

/-- A JSON value as far as it can be read.  Behind an element or a value that
    breaks off nothing more is read. -/
inductive Reading where
  | null
  | bool (b : Bool)
  | integer (n : Int)
  | decimal (x : Float)
  | text (s : String)
  /-- Elements, and what is wrong behind them, if the array is not closed. -/
  | array (items : List Reading) (stop : Option Stop)
  | object (fields : List (String × Reading)) (ending : Ending)
  | cut (begun : Beginning) (stop : Stop)

namespace Reading

/-- What is found at the start of a reading. -/
def found : Reading → Except Stop Found
  | null => .ok .null
  | bool b => .ok (.bool b)
  | integer n => .ok (.integer n)
  | decimal x => .ok (.decimal x)
  | text s => .ok (.text s)
  | array .. => .ok .sequence
  | object .. => .ok .map
  | cut _ stop => .error stop

mutual

/-- The value, if nothing in it breaks off; else the first reason. -/
def whole : Reading → Except Stop Json
  | null => .ok .null
  | bool b => .ok (.bool b)
  | integer n => .ok (.integer n)
  | decimal x => .ok (.decimal x)
  | text s => .ok (.text s)
  | array items stop => do
    let js ← wholes items
    match stop with
    | none => return .array js
    | some s => .error s
  | object fields ending => do
    let js ← wholeFields fields
    ending.check
    return .object js
  | cut _ stop => .error stop

/-- The values of some elements. -/
def wholes : List Reading → Except Stop (List Json)
  | [] => .ok []
  | r :: rs => do
    let j ← r.whole
    return j :: (← wholes rs)

/-- The values of some fields. -/
def wholeFields : List (String × Reading) → Except Stop (List (String × Json))
  | [] => .ok []
  | p :: ps => do
    let j ← wholeField p
    return j :: (← wholeFields ps)

/-- The value of a field, with its key. -/
def wholeField : String × Reading → Except Stop (String × Json)
  | (key, r) => do return (key, ← r.whole)

end

end Reading

end RowPolicy.Json
