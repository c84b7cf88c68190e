import RowPolicy.Decimal.Layout
import RowPolicy.Instant.Reader
import RowPolicy.Json.Reading
import RowPolicy.Text.Joined
import RowPolicy.Text.Shown

namespace RowPolicy.Json

/-!
# Mismatches — JSON of the wrong shape

* `Mismatch` — the ways in which a value can fail to be what is expected;
* `Mismatch.message` — the wording;
* `Fault` — why a text cannot be read: it is no JSON, or the JSON in it does
  not match.
-/

/-- How a value fails to be what is expected in its place. -/
inductive Mismatch where
  | wrongType (found : Found) (expected : String)
  /-- A kind is given by a number beyond the last one. -/
  | noSuchKind (index count : Nat)
  /-- An object stands for a word, but has not exactly one key. -/
  | notOneKey
  | wrongLength (length : Nat) (expected : String)
  | unknownField (key : String) (expected : List String)
  | unknownWord (word : String) (expected : List String)
  | missingField (key : String)
  | duplicateField (key : String)
  /-- A value has none of the forms that the type named by `title` admits. -/
  | noForm (title : String)
  | instant (fault : Instant.Fault)

/-- A name between the marks that messages put around names. -/
def named (name : String) : String := "`" ++ name ++ "`"

/-- How many of something there are, `one` being the word for one of them. -/
def counted (n : Nat) (one : String) : String :=
  toString n ++ " " ++ one ++ (if n = 1 then "" else "s")

/-- The names among which to choose. -/
def choice : List String → String
  | [] => "nothing"
  | [a] => named a
  | [a, b] => named a ++ " or " ++ named b
  | names => "one of " ++ joined ", " (names.map named)

/-- The description of what was found. -/
def Found.message : Found → String
  | null => "null"
  | bool b => "boolean " ++ named (toString b)
  | integer n => "integer " ++ named (toString n)
  | decimal x => "floating point " ++ named (Decimal.Layout.scientific.write x)
  | text s => "string " ++ Text.shown s
  | sequence => "sequence"
  | map => "map"

/-- The wording of a mismatch. -/
def Mismatch.message : Mismatch → String
  | wrongType found expected => "invalid type: " ++ found.message ++ ", expected " ++ expected
  | noSuchKind index count =>
    "invalid value: integer " ++ named (toString index) ++
      ", expected variant index 0 <= i < " ++ toString count
  | notOneKey => "invalid value: map, expected map with a single key"
  | wrongLength length expected =>
    "invalid length " ++ toString length ++ ", expected " ++ expected
  | unknownField key expected => "unknown field " ++ named key ++ ", expected " ++ choice expected
  | unknownWord word expected =>
    "unknown variant " ++ named word ++ ", expected " ++ choice expected
  | missingField key => "missing field " ++ named key
  | duplicateField key => "duplicate field " ++ named key
  | noForm title => "data did not match any variant of untagged enum " ++ title
  | instant fault => fault.message

/-- Why a text cannot be read. -/
inductive Fault where
  | stopped (stop : Stop)
  | mismatch (m : Mismatch)

/-- The value of a reading, for a type that looks at it as a whole. -/
def Reading.complete (r : Reading) : Except Fault Json := r.whole.mapError .stopped

/-- A mismatch of types at a reading, unless it breaks off there. -/
def Reading.wrongType {α : Type} (r : Reading) (expected : String) : Except Fault α :=
  match r.found with
  | .ok found => .error (.mismatch (.wrongType found expected))
  | .error stop => .error (.stopped stop)

/-- A mismatch of types at a value. -/
def wrongType {α : Type} (j : Json) (expected : String) : Except Fault α :=
  .error (.mismatch (.wrongType j.found expected))

example : (Mismatch.wrongType (.text "zz") "a boolean").message =
    "invalid type: string \"zz\", expected a boolean" := by decide +kernel

example : (Mismatch.unknownField "x" ["groups"]).message =
    "unknown field `x`, expected `groups`" := by decide +kernel

end RowPolicy.Json
