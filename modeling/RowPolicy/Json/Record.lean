import RowPolicy.Json.Content

namespace RowPolicy.Json

/-!
# Records — objects with known fields

A record is an object, or an array of the contents of its fields in order, of
which the last ones may be left out if they have a default.  Fields are read in
the order of the text, so that the first fault in the text is the one reported;
missing fields are reported afterwards, in the order of the type.

* `RecordType` — the fields of a type of records;
* `RecordType.Slots` — the contents of the fields that are there;
* `RecordType.ofReading`, `RecordType.ofJson` — the slots of a record in a text
  and in a value;
* `RecordType.get` — the content of a field, or its default.
-/

/-- A type of records, with a type of content for each field. -/
structure RecordType (F : Type) (Content : F → Type) where
  /-- How messages call a record. -/
  title : String
  /-- The fields, in order. -/
  fields : List F
  label : F → String
  /-- The default of a field, if it may be left out. -/
  absent : (f : F) → Option (Content f)

namespace RecordType

variable {F : Type} {Content : F → Type} {α : Type}

/-- The contents of the fields that are there. -/
abbrev Slots (Content : F → Type) : Type := (f : F) → Option (Content f)

/-- No field is there. -/
def Slots.none : Slots Content := fun _ => Option.none

/-- The slots with a field filled. -/
def Slots.put [DecidableEq F] (slots : Slots Content) (f : F) (c : Content f) : Slots Content :=
  fun g => if h : f = g then some (h ▸ c) else slots g

/-- The field that a key names. -/
def field? (r : RecordType F Content) (key : String) : Option F :=
  r.fields.find? fun f => r.label f == key

/-- The content of a field, or its default. -/
def get (r : RecordType F Content) (slots : Slots Content) (f : F) : Except Fault (Content f) :=
  match slots f, r.absent f with
  | some c, _ => .ok c
  | none, some c => .ok c
  | none, none => .error (.mismatch (.missingField (r.label f)))

/-! ### Fields by name -/

/-- Fills slots from fields.  A key that names no field is a fault if `strict`,
    and is passed over with its value otherwise. -/
def readFields [DecidableEq F] (r : RecordType F Content) (strict : Bool)
    (read : (f : F) → α → Except Fault (Content f)) (slots : Slots Content) :
    List (String × α) → Except Fault (Slots Content)
  | [] => .ok slots
  | (key, value) :: rest =>
    match r.field? key with
    | none =>
      if strict then .error (.mismatch (.unknownField key (r.fields.map r.label)))
      else readFields r strict read slots rest
    | some f =>
      if (slots f).isSome then .error (.mismatch (.duplicateField key))
      else do
        let c ← read f value
        readFields r strict read (slots.put f c) rest

/-! ### Fields by position -/

/-- How messages call an array that stands for a record. -/
def arrayTitle (r : RecordType F Content) : String :=
  r.title ++ " with " ++ counted r.fields.length "element"

/-- Fills slots from elements, and gives the elements that are left; `place` is
    the position of the next field.  An array that is too short may break off. -/
def readItems [DecidableEq F] (r : RecordType F Content)
    (read : (f : F) → α → Except Fault (Content f)) (stop : Option Stop) :
    (place : Nat) → Slots Content → List F → List α → Except Fault (Slots Content × List α)
  | _, slots, [], items => .ok (slots, items)
  | place, slots, f :: fs, item :: items => do
    let c ← read f item
    readItems r read stop (place + 1) (slots.put f c) fs items
  | place, slots, f :: fs, [] =>
    match stop, r.absent f with
    | some s, _ => .error (.stopped s)
    | none, some _ => readItems r read stop (place + 1) slots fs []
    | none, none => .error (.mismatch (.wrongLength place r.arrayTitle))

/-! ### Records -/

/-- The slots of a record in a text; no other fields are admitted. -/
def ofReading [DecidableEq F] (r : RecordType F Content)
    (read : (f : F) → Reading → Except Fault (Content f)) :
    Reading → Except Fault (Slots Content)
  | .object fields ending => do
    let slots ← r.readFields true read Slots.none fields
    ending.check.mapError .stopped
    return slots
  | .array items stop => do
    let (slots, extra) ← r.readItems read stop 0 Slots.none r.fields items
    match extra, stop with
    | [], none => return slots
    | [], some s => .error (.stopped s)
    | _ :: _, _ => .error (.stopped .malformed)
  | value => value.wrongType r.title

/-- The slots of a record in a value. -/
def ofJson [DecidableEq F] (r : RecordType F Content) (strict : Bool)
    (read : (f : F) → Json → Except Fault (Content f)) : Json → Except Fault (Slots Content)
  | .object fields => r.readFields strict read Slots.none fields
  | .array items => do
    let (slots, extra) ← r.readItems read none 0 Slots.none r.fields items
    if extra.isEmpty then return slots
    else .error (.mismatch (.wrongLength items.length
      (counted r.fields.length "element" ++ " in sequence")))
  | value => wrongType value r.title

end RecordType

end RowPolicy.Json
