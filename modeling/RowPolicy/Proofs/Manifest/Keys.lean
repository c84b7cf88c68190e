import RowPolicy.Manifest.Sql
import RowPolicy.Proofs.Manifest.Readers

namespace RowPolicy

/-!
# Keys that no type declares

In a manifest that is accepted such keys stand in templates, predicates and operands only, and
there they are passed over with all that stands below them.

* `Manifest.Shape.ofJson_declaredOnly`, `OperandDraft.ofFields_declaredOnly` — what is passed over;
* `Manifest.declares_keys` — the keys of a manifest that is accepted;
* `Manifest.misspelled_column` — a key that is passed over.
-/

open Manifest (Place Shape)

/-! ### What is passed over -/

/-- The fields whose keys are declared. -/
def Manifest.Shape.declaredOnly (s : Shape) (fields : List (String × Json)) :
    List (String × Json) :=
  fields.filter fun p => (s.part? p.1).isSome

/-- A record is the same without keys that name no field, where they are passed over. -/
theorem Manifest.Shape.ofJson_declaredOnly {F : Type} {Content : F → Type} [DecidableEq F]
    (r : Json.RecordType F Content) (place : F → Place)
    (read : (f : F) → Json → Except Json.Fault (Content f)) (fields : List (String × Json)) :
    r.ofJson false read (.object ((Shape.record r place).declaredOnly fields)) =
      r.ofJson false read (.object fields) := by
  have hadmits (key : String) (hkey : (r.field? key).isSome) :
      ((Shape.record r place).part? key).isSome = true :=
    Option.isSome_map.trans hkey
  exact Json.RecordType.readFields_filter hadmits fields

namespace OperandDraft

section

variable (admits : String → Bool) (fields : List (String × Json))

/-- The content of a key is that among the keys that are admitted, if it is one of them. -/
theorem sole_filter (key : String) :
    sole? (fields.filter fun p => admits p.1) key =
      if admits key then sole? fields key else none := by
  -- of the fields under the key, either all are admitted or none is
  have hfields : (fields.filter fun p => admits p.1).filter (fun p => p.1 == key) =
      if admits key then fields.filter fun p => p.1 == key else [] := by
    rw [List.filter_filter]
    split
    next h =>
      refine List.filter_congr fun p _ => ?_
      by_cases hkey : p.1 = key <;> simp [hkey, h]
    next h =>
      refine List.filter_eq_nil_iff.mpr fun p _ => ?_
      by_cases hkey : p.1 = key <;> simp [hkey, h]
  rw [sole?, hfields]
  split_ifs <;> rfl

/-- The text of a key is that among the keys that are admitted, if it is one of them. -/
theorem soleText_filter (key : String) :
    soleText? (fields.filter fun p => admits p.1) key =
      if admits key then soleText? fields key else none := by
  rw [soleText?, sole_filter]
  split_ifs <;> rfl

/-- An instant is read from its one key, if that is admitted. -/
theorem timestamp_filter : timestamp? (fields.filter fun p => admits p.1) =
    if admits "timestamp" then timestamp? fields else none := by
  rw [timestamp?, soleText_filter]
  split_ifs <;> rfl

/-- A context without a type is read from its one key, if that is admitted. -/
theorem plainContext_filter : plainContext? (fields.filter fun p => admits p.1) =
    if admits "context" then plainContext? fields else none := by
  rw [plainContext?, sole_filter]
  split_ifs <;> rfl

/-- The type of a setting is read as before, if its key is admitted. -/
theorem cast_filter (h : admits "type" = true) :
    cast? (fields.filter fun p => admits p.1) = cast? fields := by
  have hany : ((fields.filter fun p => admits p.1).any fun p => p.1 == "type") =
      fields.any fun p => p.1 == "type" := by
    rw [List.any_filter]
    congr 1
    funext p
    by_cases hkey : p.1 = "type" <;> simp [hkey, h]
  rw [cast?, hany, sole_filter, if_pos h, cast?]

/-- A setting is read from two keys:  with the first one the second has to be admitted too. -/
theorem setting_filter (h : admits "session" = true → admits "type" = true) :
    setting? (fields.filter fun p => admits p.1) =
      if admits "session" then setting? fields else none := by
  rw [setting?, soleText_filter]
  split_ifs with hsession
  · rw [cast_filter admits fields (h hsession), setting?]
  · rfl

/-- Text taken over is read from its one key, if that is admitted. -/
theorem raw_filter : raw? (fields.filter fun p => admits p.1) =
    if admits "raw" then raw? fields else none := by
  rw [raw?, soleText_filter]
  split_ifs <;> rfl

/-- Each form is found among the keys that are admitted if its first key is one of them. -/
theorem ofFields_filter (h : admits "session" = true → admits "type" = true) :
    ofFields? (fields.filter fun p => admits p.1) =
      ((if admits "timestamp" then timestamp? fields else none) <|>
        (if admits "context" then plainContext? fields else none) <|>
        (if admits "session" then setting? fields else none) <|>
        (if admits "raw" then raw? fields else none)) := by
  rw [ofFields?, timestamp_filter, plainContext_filter, setting_filter admits fields h, raw_filter]

end

/-- An operand is the same without the keys that its form does not have. -/
theorem ofFields_declaredOnly (fields : List (String × Json)) :
    ofFields? ((Place.operand.shape (.object fields)).declaredOnly fields) = ofFields? fields := by
  have hfilter : (Place.operand.shape (.object fields)).declaredOnly fields =
      fields.filter fun p => ((form fields).lookup p.1).isSome := rfl
  have hcases := form_cases fields
  rw [hfilter, ofFields_filter fun key => ((form fields).lookup key).isSome, ofFields?]
  -- in each form the keys that are declared are just those it is read from
  · obtain ⟨v, hv, hform⟩ | ⟨hno, v, hv, hform⟩ | ⟨hno, hnot, v, hv, hform⟩ |
      ⟨hno, hnot, hneither, v, hv, hform⟩ | ⟨hno, hnot, hneither, hnor, hform⟩ := hcases
    · simp [hform, hv]
    · simp [hform, hno, hv, List.lookup_cons]
    · simp [hform, hno, hnot, hv, List.lookup_cons]
    · simp [hform, hno, hnot, hneither, hv, List.lookup_cons]
    · simp [hform, hno, hnot, hneither, hnor]
  · obtain ⟨v, hv, hform⟩ | ⟨-, v, hv, hform⟩ | ⟨-, -, v, hv, hform⟩ | ⟨-, -, -, v, hv, hform⟩ |
      ⟨-, -, -, -, hform⟩ := hcases <;> rw [hform] <;> decide

end OperandDraft

namespace Manifest

/-- **Keys of a manifest.** In a text that is accepted, manifest, groups, policies, subqueries and
    joins, and objects that stand for a word, have no keys but those that their types declare.
    So all keys of all objects in it are declared if and only if those of templates, predicates
    and operands are.  In these a key that is not declared is passed over with its content,
    whatever it is: what is read is the same without it. -/
theorem declares_keys {text : String} {m : Manifest} (h : ofText text = .ok m) :
    ∃ j, (Json.Document.ofText text).root.whole = .ok j ∧
      (Place.manifest.keyUses j).map (·.key) = j.keys ∧
      (∀ use ∈ Place.manifest.keyUses j, use.declared = false → use.place.isLoose = true) ∧
      ((∀ use ∈ Place.manifest.keyUses j, use.declared = true) ↔
        ∀ use ∈ Place.manifest.keyUses j, use.place.isLoose = true → use.declared = true) ∧
      (∀ (kind : Template.Kind) (fields : List (String × Json)),
        kind.record.ofJson false Template.content (.object fields) =
          kind.record.ofJson false Template.content
            (.object ((Shape.record kind.record Template.Field.place).declaredOnly fields))) ∧
      (∀ (predicate : PredicateReader) (kind : PredicateDraft.Kind) (fields : List (String × Json)),
        PredicateDraft.ofRecord predicate kind (.object fields) =
          PredicateDraft.ofRecord predicate kind
            (.object ((Shape.record kind.record PredicateDraft.Field.place).declaredOnly fields))) ∧
      (∀ fields : List (String × Json), OperandDraft.ofFields? fields =
        OperandDraft.ofFields? ((Place.operand.shape (.object fields)).declaredOnly fields)) := by
  obtain ⟨m, hm, -⟩ := bind_eq_ok.mp h
  obtain ⟨j, hj, hclean⟩ := ofReading_isReadFromText _ m hm
  refine ⟨j, hj, Place.key_keyUses _ j, hclean, ⟨fun hall use huse _ => hall use huse, ?_⟩,
    fun kind fields => (Shape.ofJson_declaredOnly _ _ _ fields).symm,
    fun predicate kind fields => ?_, fun fields => (OperandDraft.ofFields_declaredOnly fields).symm⟩
  -- a key that is not declared stands where such keys are passed over, so that case is enough
  · intro hloose use huse
    cases hdeclared : use.declared with
    | true => rfl
    | false => exact hdeclared.symm.trans (hloose use huse (hclean use huse hdeclared))
  · rw [PredicateDraft.ofRecord, PredicateDraft.ofRecord, Shape.ofJson_declaredOnly]

/-- Records by position and by name, one in the other, without other keys. -/
theorem declares_keys_nested :
    let text := "[[[\"g\",null,[\x7b\"table\":\"t\",\"name\":\"p\"," ++
      "\"allow\":\x7b\"kind\":\"in\",\"column\":\"a\",\"subquery\":\x7b\"from\":\"m\"," ++
      "\"join\":[\x7b\"left\":null\x7d,\"u\",null," ++
      "[\"eq\",\"u.id\",\x7b\"session\":\"k\"\x7d]]\x7d\x7d\x7d]]]]"
    ∃ j, (Json.Document.ofText text).root.whole = .ok j ∧
      "session" ∈ j.keys ∧ ∀ use ∈ Place.manifest.keyUses j, use.declared = true := by
  intro text
  -- the text is evaluated twice, once for the manifest and once for its keys
  have hread : (ofText text).toOption.isSome = true := by decide +kernel
  have hkeys : ((Json.Document.ofText text).root.whole.toOption.map fun j =>
      (decide ("session" ∈ j.keys),
        (Place.manifest.keyUses j).all fun use => !use.place.isLoose || use.declared)) =
      some (true, true) := by
    decide +kernel
  cases hm : ofText text with
  | error fault => simp [hm, Except.toOption] at hread
  | ok m =>
    obtain ⟨j, hj, -, -, hall, -⟩ := declares_keys hm
    rw [hj, Except.toOption, Option.map_some, Option.some.injEq, Prod.mk.injEq,
      decide_eq_true_iff, List.all_eq_true] at hkeys
    refine ⟨j, hj, hkeys.1, hall.mpr fun use huse hloose => ?_⟩
    simpa [hloose] using hkeys.2 use huse

/-- With two letters exchanged in its key, the column of the owner is the default one. -/
theorem misspelled_column :
    let text := "\x7b\"groups\":[\x7b\"name\":\"g\",\"policies\":[\x7b\"table\":\"t\"," ++
      "\"name\":\"p\",\"operation\":\"SELECT\"," ++
      "\"allow\":\x7b\"kind\":\"is_owner\",\"colunm\":\"author_id\"\x7d\x7d]\x7d]\x7d"
    ((Json.Document.ofText text).root.whole.toOption.map fun j =>
        (Place.manifest.keyUses j).filter fun use => !use.declared) =
      some [⟨.predicate, "colunm", false⟩] ∧
    (sqlOfText text {} false).toOption =
      some "CREATE POLICY \"p\" ON \"t\" FOR SELECT USING (\"user_id\" = auth.uid())" := by
  decide +kernel

end Manifest

end RowPolicy
