import RowPolicy.Json.Record

namespace RowPolicy.Json

/-!
# Kinds — records of several types, told apart by a tag

The tag is the field `kind`, wherever it stands, or the first element of an
array.  The other fields are kept until the kind is known; they are complete
values by then.

* `Kinds` — the kinds of such records;
* `Kinds.ofReading`, `Kinds.ofJson` — the kind and the rest of a record in a
  text and in a value.
-/

/-- The key of the tag. -/
def tagKey : String := "kind"

/-- A word of several parts with underscores between them, each part with a
    capital letter and without the underscores. -/
def capitalized : List Char → List Char
  | [] => []
  | c :: s => c.toUpper :: go s
where
  /-- What stands behind a letter. -/
  go : List Char → List Char
    | [] => []
    | '_' :: c :: s => c.toUpper :: go s
    | c :: s => c :: go s

/-- The kinds of records that a tag tells apart. -/
structure Kinds (K : Type) extends Words K where
  /-- The name that messages use for the type of these records. -/
  name : String

namespace Kinds

variable {K α : Type}

/-- How messages call such a record. -/
def title (k : Kinds K) : String := "internally tagged enum " ++ k.name

/-- How messages call a record of one kind. -/
def recordTitle (k : Kinds K) (kind : K) : String :=
  "struct variant " ++ k.name ++ "::" ++ String.ofList (capitalized (k.word kind).toList)

/-- The kind that a tag in a text names. -/
def tag (k : Kinds K) : Reading → Except Fault K
  | .text word => k.value word
  | r => r.wrongType "variant identifier"

/-- The kind that a tag in a value names; its number among the kinds will do
    as well. -/
def tagOfJson (k : Kinds K) : Json → Except Fault K
  | .text word => k.value word
  | .integer (.ofNat n) =>
    match k.every[n]? with
    | some kind => .ok kind
    | none => .error (.mismatch (.noSuchKind n k.every.length))
  | j => wrongType j "variant identifier"

/-- The tag and the other fields; `known` is the kind, once it is known. -/
def split (readTag : α → Except Fault K) (keep : α → Except Fault Json) (known : Option K) :
    List (String × α) → Except Fault (Option K × List (String × Json))
  | [] => .ok (known, [])
  | (key, value) :: rest =>
    if key = tagKey then
      match known with
      | some _ => .error (.mismatch (.duplicateField tagKey))
      | none => do
        let kind ← readTag value
        split readTag keep (some kind) rest
    else do
      let content ← keep value
      let (kind, fields) ← split readTag keep known rest
      return (kind, (key, content) :: fields)

/-- Refuses a record without a tag. -/
def tagged (kind : Option K) : Except Fault K :=
  match kind with
  | some kind => .ok kind
  | none => .error (.mismatch (.missingField tagKey))

/-- The kind of a record in a text, and the record without its tag. -/
def ofReading (k : Kinds K) : Reading → Except Fault (K × Json)
  | .object fields ending => do
    let (kind, rest) ← split k.tag Reading.complete none fields
    ending.check.mapError .stopped
    return (← tagged kind, .object rest)
  | .array [] none => .error (.mismatch (.missingField tagKey))
  | .array [] (some stop) => .error (.stopped stop)
  | .array (first :: rest) stop => do
    let kind ← k.tag first
    return (kind, ← (Reading.array rest stop).complete)
  | r => r.wrongType k.title

/-- The kind of a record in a value, and the record without its tag. -/
def ofJson (k : Kinds K) : Json → Except Fault (K × Json)
  | .object fields => do
    let (kind, rest) ← split k.tagOfJson .ok none fields
    return (← tagged kind, .object rest)
  | .array [] => .error (.mismatch (.missingField tagKey))
  | .array (first :: rest) => do return (← k.tagOfJson first, .array rest)
  | j => wrongType j k.title

example : String.ofList (capitalized "is_not_null".toList) = "IsNotNull" := by decide +kernel

example : (split (fun b : Bool => .ok b) (fun b => .ok (.bool b)) none
    [("a", true), ("kind", false)]).toOption.map Prod.fst = some (some false) := by decide +kernel

end Kinds

end RowPolicy.Json
