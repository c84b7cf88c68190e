namespace RowPolicy

/-!
# JSON values

* `Json` — a value; objects keep their keys in the order in which they are
  written, with repetitions;
* `Json.Found` — what a message says was found in the place of something else;
* `Json.height` — how deep arrays and objects are nested.
-/

/-- A JSON value.  Numbers are integers if they are written as such and fit 64
    bits. -/
inductive Json where
  | null
  | bool (b : Bool)
  | integer (n : Int)
  | decimal (x : Float)
  | text (s : String)
  | array (items : List Json)
  | object (fields : List (String × Json))

namespace Json

/-- A value as far as messages describe it. -/
inductive Found where
  | null
  | bool (b : Bool)
  | integer (n : Int)
  | decimal (x : Float)
  | text (s : String)
  | sequence
  | map

/-- What is found where a value stands. -/
def found : Json → Found
  | null => .null
  | bool b => .bool b
  | integer n => .integer n
  | decimal x => .decimal x
  | text s => .text s
  | array _ => .sequence
  | object _ => .map

mutual

/-- The depth to which arrays and objects are nested in a value. -/
def height : Json → Nat
  | array items => heights items + 1
  | object fields => fieldHeights fields + 1
  | _ => 0

/-- The greatest height in a list. -/
def heights : List Json → Nat
  | [] => 0
  | j :: js => max j.height (heights js)

/-- The greatest height among the values of some fields. -/
def fieldHeights : List (String × Json) → Nat
  | [] => 0
  | p :: ps => max (fieldHeight p) (fieldHeights ps)

/-- The height of the value of a field. -/
def fieldHeight : String × Json → Nat
  | (_, j) => j.height

end

example : height (array [object [("a", null)], array []]) = 2 := by decide

end Json

end RowPolicy
