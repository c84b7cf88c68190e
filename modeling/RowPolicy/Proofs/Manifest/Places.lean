import RowPolicy.Manifest.Policy
import RowPolicy.Proofs.Json.Acceptance

namespace RowPolicy

/-!
# Places — what each part of a manifest is read as

A manifest is read from the outside to the inside.  What a value is read as decides which keys
it may have, and what their contents and its elements are read as in turn.

* `Manifest.Place`, `Manifest.Shape` — what a value is read as, and its parts;
* `Manifest.Place.shape` — the shape of a value, as the types of records declare it;
* `Manifest.Place.keyUses` — the keys of a value, with what becomes of them;
* `Manifest.Place.key_keyUses` — no key is left out of them;
* `Manifest.Place.clean_of_holds` — keys are followed from a value to its parts.
-/

/-! ### Keys -/

namespace Json

/-- The elements of an array; no other value has any. -/
def items : Json → List Json
  | array items => items
  | _ => []

/-- The fields of an object; no other value has any. -/
def fields : Json → List (String × Json)
  | object fields => fields
  | _ => []

mutual

/-- The keys of all objects in a value, in the order of the text. -/
def keys : Json → List String
  | array items => itemKeys items
  | object fields => fieldKeys fields
  | _ => []

/-- The keys in some elements. -/
def itemKeys : List Json → List String
  | [] => []
  | j :: js => j.keys ++ itemKeys js

/-- The keys of some fields, and those in their contents. -/
def fieldKeys : List (String × Json) → List String
  | [] => []
  | p :: ps => fieldKey p ++ fieldKeys ps

/-- The key of a field, and those in its content. -/
def fieldKey : String × Json → List String
  | (key, content) => key :: content.keys

end

end Json

/-! ### Places -/

/-- What a value in a manifest is read as. -/
inductive Manifest.Place where
  | manifest
  | group
  | policy
  | template
  | predicate
  | operand
  | subquery
  | join
  /-- One of some words. -/
  | word (words : List String)
  /-- Elements that are all read as the same. -/
  | list (element : Place)
  /-- A text, a truth value, a number or nothing. -/
  | plain
  deriving DecidableEq, Repr

namespace Manifest

/-- Whether readers pass over keys that are not declared, where they read this. -/
def Place.isLoose : Place → Bool
  | template | predicate | operand => true
  | _ => false

/-- One of the words of a type. -/
def Place.ofWords {α : Type} (w : Json.Words α) : Place := .word (w.every.map w.word)

end Manifest

open Manifest (Place)

/-- What the content of a field is read as. -/
def GroupDraft.Field.place : GroupDraft.Field → Place
  | policies => .list .policy
  | name | description => .plain

/-- What the content of a field is read as. -/
def PolicyDraft.Field.place : PolicyDraft.Field → Place
  | template => .template
  | command => .ofWords Command.words
  | usingExpr | checkExpr | allow => .predicate
  | table | name | role | restrictive | description => .plain

/-- What the content of a field is read as. -/
def Template.Field.place : Template.Field → Place
  | command => .ofWords Command.words
  | column | setting | role => .plain

/-- What the content of a field is read as; a column among arguments has no keys. -/
def PredicateDraft.Field.place : PredicateDraft.Field → Place
  | operand => .operand
  | values => .list .operand
  | subquery => .subquery
  | args | members => .list .predicate
  | column | pattern | setting | joinTable | foreignKey | localKey | table | select | date | role
  | function => .plain

/-- What the content of a field is read as. -/
def SubqueryDraft.Field.place : SubqueryDraft.Field → Place
  | columns => .list .plain
  | join => .join
  | filter => .predicate
  | table | aliasName => .plain

/-- What the content of a field is read as. -/
def JoinDraft.Field.place : JoinDraft.Field → Place
  | kind => .ofWords JoinKind.words
  | on => .predicate
  | table | aliasName => .plain

/-- The keys of the form that an object is read as, if it describes an operand. -/
def OperandDraft.form (fields : List (String × Json)) : List (String × Place) :=
  if (timestamp? fields).isSome then [("timestamp", .plain)]
  else if (plainContext? fields).isSome then [("context", .ofWords PlainContext.words)]
  else if (setting? fields).isSome then [("session", .plain), ("type", .ofWords Cast.words)]
  else if (raw? fields).isSome then [("raw", .plain)]
  else []

namespace Manifest

/-! ### Shapes -/

/-- What the parts of a value are read as. -/
structure Shape where
  /-- What the content of a key is read as, if the key is declared. -/
  part? : String → Option Place
  /-- What an element is read as, by its position. -/
  item : Nat → Place

namespace Shape

/-- No parts. -/
def empty : Shape where
  part? _ := none
  item _ := .plain

/-- The contents of fields, by name or by position. -/
def record {F : Type} {Content : F → Type} (r : Json.RecordType F Content) (place : F → Place) :
    Shape where
  part? key := (r.field? key).map place
  item i := (r.fields[i]?.map place).getD .plain

/-- A tag in front of other parts. -/
def tagged (s : Shape) : Shape where
  part? key := if key = Json.tagKey then some .plain else s.part? key
  item
    | 0 => .plain
    | i + 1 => s.item i

end Shape

/-- The shape of a value.  That of a template or a predicate depends on its kind, and that of
    an operand on its form; without one they have no shape. -/
def Place.shape : Place → Json → Shape
  | manifest, _ => .record Manifest.record fun _ => .list .group
  | group, _ => .record GroupDraft.record GroupDraft.Field.place
  | policy, _ => .record PolicyDraft.record PolicyDraft.Field.place
  | template, j =>
    match Template.kinds.ofJson j with
    | .ok (kind, _) => (Shape.record kind.record Template.Field.place).tagged
    | .error _ => .empty
  | predicate, j =>
    match PredicateDraft.kinds.ofJson j with
    | .ok (kind, _) => (Shape.record kind.record PredicateDraft.Field.place).tagged
    | .error _ => .empty
  | operand, j =>
    { part? := fun key => (OperandDraft.form j.fields).lookup key, item := fun _ => .operand }
  | subquery, _ => .record SubqueryDraft.record SubqueryDraft.Field.place
  | join, _ => .record JoinDraft.record JoinDraft.Field.place
  | word words, _ =>
    { part? := fun key => if key ∈ words then some .plain else none, item := fun _ => .plain }
  | list element, _ => { part? := fun _ => none, item := fun _ => element }
  | plain, _ => .empty

/-! ### Keys and what becomes of them -/

/-- A key where it stands in a manifest. -/
structure KeyUse where
  /-- What the object with the key is read as; below a key that is not declared nothing is
      read, and this is what the object with that key is read as. -/
  place : Place
  key : String
  /-- Whether the type that is read there declares the key. -/
  declared : Bool
  deriving DecidableEq, Repr

namespace Place

mutual

/-- The keys of all objects in a value, and what becomes of them. -/
def keyUses (place : Place) : Json → List KeyUse
  | .array items => itemUses (place.shape (.array items)).item 0 items
  | .object fields => fieldUses place (place.shape (.object fields)).part? fields
  | _ => []

/-- Those in some elements; `i` is the position of the first one. -/
def itemUses (item : Nat → Place) (i : Nat) : List Json → List KeyUse
  | [] => []
  | j :: js => (item i).keyUses j ++ itemUses item (i + 1) js

/-- Those of some fields. -/
def fieldUses (place : Place) (part? : String → Option Place) : List (String × Json) → List KeyUse
  | [] => []
  | p :: ps => fieldUse place part? p ++ fieldUses place part? ps

/-- Those of a field. -/
def fieldUse (place : Place) (part? : String → Option Place) : String × Json → List KeyUse
  | (key, content) =>
    match part? key with
    | some part => ⟨place, key, true⟩ :: part.keyUses content
    | none => (key :: content.keys).map fun key => ⟨place, key, false⟩

end

mutual

/-- Every key of every object is among them, in the order of the text. -/
theorem key_keyUses (place : Place) : (j : Json) → (place.keyUses j).map (·.key) = j.keys
  | .null | .bool _ | .integer _ | .decimal _ | .text _ => rfl
  | .array items => by rw [keyUses, Json.keys, key_itemUses]
  | .object fields => by rw [keyUses, Json.keys, key_fieldUses]

/-- The keys met in the elements of a list are those of the elements, in order. -/
theorem key_itemUses (item : Nat → Place) (i : Nat) :
    (js : List Json) → (itemUses item i js).map (·.key) = Json.itemKeys js
  | [] => rfl
  | j :: js => by rw [itemUses, Json.itemKeys, List.map_append, key_keyUses, key_itemUses]

/-- The keys met in some fields are those of the fields, in order. -/
theorem key_fieldUses (place : Place) (part? : String → Option Place) :
    (ps : List (String × Json)) → (fieldUses place part? ps).map (·.key) = Json.fieldKeys ps
  | [] => rfl
  | p :: ps => by rw [fieldUses, Json.fieldKeys, List.map_append, key_fieldUse, key_fieldUses]

/-- The keys met in a field are its own and those of its content, whether or not it is declared. -/
theorem key_fieldUse (place : Place) (part? : String → Option Place) :
    (p : String × Json) → (fieldUse place part? p).map (·.key) = Json.fieldKey p
  | (key, content) => by
    rw [fieldUse, Json.fieldKey]
    split
    · rw [List.map_cons, key_keyUses]
    · rw [List.map_map]
      exact List.map_id _

end

/-! ### Values without undeclared keys, but where they are passed over -/

/-- Keys that are not declared stand only where readers pass over them. -/
def Clean (place : Place) (j : Json) : Prop :=
  ∀ use ∈ place.keyUses j, use.declared = false → use.place.isLoose = true

end Place

/-- The parts of a value are clean, and a key that is not declared is passed over. -/
structure Shape.Holds (s : Shape) (loose : Bool) (j : Json) : Prop where
  items : ∀ (i : Nat) (v : Json), j.items[i]? = some v → (s.item i).Clean v
  declared : ∀ p ∈ j.fields, ∀ part, s.part? p.1 = some part → part.Clean p.2
  undeclared : ∀ p ∈ j.fields, s.part? p.1 = none → loose = true

namespace Place

/-- A key met in the elements of a list is met in one of them, at its place. -/
theorem mem_itemUses {item : Nat → Place} {i : Nat} {js : List Json} {use : KeyUse}
    (h : use ∈ itemUses item i js) :
    ∃ (k : Nat) (j : Json), js[k]? = some j ∧ use ∈ (item (i + k)).keyUses j := by
  induction js generalizing i with
  | nil => cases h
  | cons j js ih =>
    rw [itemUses, List.mem_append] at h
    obtain h | h := h
    · exact ⟨0, j, rfl, h⟩
    · obtain ⟨k, v, hv, huse⟩ := ih h
      exact ⟨k + 1, v, hv, by rwa [Nat.add_right_comm, Nat.add_assoc] at huse⟩

/-- A key met in some fields is met in one of them. -/
theorem mem_fieldUses {place : Place} {part? : String → Option Place}
    {ps : List (String × Json)} {use : KeyUse} (h : use ∈ fieldUses place part? ps) :
    ∃ p ∈ ps, use ∈ fieldUse place part? p := by
  induction ps with
  | nil => cases h
  | cons p ps ih =>
    rw [fieldUses, List.mem_append] at h
    obtain h | h := h
    · exact ⟨p, List.mem_cons_self, h⟩
    · obtain ⟨q, hq, huse⟩ := ih h
      exact ⟨q, List.mem_cons_of_mem _ hq, huse⟩

/-- A value is clean if its parts are, and its own keys are declared or passed over. -/
theorem clean_of_holds {place : Place} {j : Json} (h : (place.shape j).Holds place.isLoose j) :
    place.Clean j := by
  intro use huse hundeclared
  -- a list has no keys of its own, and those of a record are declared or passed over
  cases j with
  | array items =>
    rw [keyUses] at huse
    obtain ⟨k, v, hv, hmem⟩ := mem_itemUses huse
    rw [Nat.zero_add] at hmem
    exact h.items k v hv use hmem hundeclared
  | object fields =>
    rw [keyUses] at huse
    obtain ⟨⟨key, content⟩, hp, hmem⟩ := mem_fieldUses huse
    rw [fieldUse] at hmem
    split at hmem
    next part hpart =>
      obtain rfl | hmem := List.mem_cons.mp hmem
      · cases hundeclared
      · exact h.declared _ hp part hpart use hmem hundeclared
    -- below a key that is not declared, no key is
    next hpart =>
      obtain ⟨_, -, rfl⟩ := List.mem_map.mp hmem
      exact h.undeclared _ hp hpart
  | _ => cases huse

/-- A value without parts is clean, whatever it is read as. -/
theorem clean_of_keys_nil {place : Place} {j : Json} (h : j.keys = []) : place.Clean j := by
  intro use huse
  have hkey : use.key ∈ (place.keyUses j).map (·.key) := List.mem_map_of_mem huse
  rw [key_keyUses, h] at hkey
  cases hkey

end Place

end Manifest

end RowPolicy
