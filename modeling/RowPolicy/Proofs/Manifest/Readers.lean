import RowPolicy.Proofs.Manifest.Contents

namespace RowPolicy

/-!
# Readers and the keys they admit

Manifests, groups, policies, subqueries and joins have no keys but those of their types.  The
readers of templates, predicates and operands pass over other keys.  What each reader accepts is
clean, which is shown from the readers of its parts:

* `OperandDraft.form_cases`, `OperandDraft.clean_form` — the forms of operands;
* `PredicateDraft.ofJsonWithin_isReadBy` — predicates, nested to any depth;
* `Manifest.ofReading_isReadFromText` — manifests.
-/

open Manifest (Place Shape)

/-! ### Operands -/

namespace OperandDraft

/-- The content of the one field with a key is that of every field with it. -/
theorem eq_of_sole {fields : List (String × Json)} {key : String} {content : Json}
    (h : sole? fields key = some content) {p : String × Json} (hp : p ∈ fields) (hkey : p.1 = key) :
    p.2 = content := by
  have hmem : p ∈ fields.filter fun p => p.1 == key :=
    List.mem_filter.mpr ⟨hp, beq_iff_eq.mpr hkey⟩
  unfold sole? at h
  split at h
  next c heq =>
    rw [heq, List.mem_singleton] at hmem
    rw [hmem]
    exact Option.some.inj h
  next => cases h

/-- A text read from the one field with a key is clean. -/
theorem clean_of_soleText {fields : List (String × Json)} {key s : String}
    (h : soleText? fields key = some s) {p : String × Json} (hp : p ∈ fields) (hkey : p.1 = key) :
    Place.plain.Clean p.2 := by
  unfold soleText? at h
  split at h
  next t hsole =>
    rw [eq_of_sole hsole hp hkey]
    exact Place.clean_of_keys_nil rfl
  next => cases h

/-- An object has the first of the forms that it can be read as. -/
theorem form_cases (fields : List (String × Json)) :
    (∃ v, timestamp? fields = some v ∧ form fields = [("timestamp", .plain)]) ∨
    (timestamp? fields = none ∧ ∃ v, plainContext? fields = some v ∧
      form fields = [("context", .ofWords PlainContext.words)]) ∨
    (timestamp? fields = none ∧ plainContext? fields = none ∧ ∃ v, setting? fields = some v ∧
      form fields = [("session", .plain), ("type", .ofWords Cast.words)]) ∨
    (timestamp? fields = none ∧ plainContext? fields = none ∧ setting? fields = none ∧
      ∃ v, raw? fields = some v ∧ form fields = [("raw", .plain)]) ∨
    (timestamp? fields = none ∧ plainContext? fields = none ∧ setting? fields = none ∧
      raw? fields = none ∧ form fields = []) := by
  -- the forms are tried in a fixed order, so each excludes those before it
  unfold form
  cases timestamp? fields with
  | some v => simp
  | none =>
    cases plainContext? fields with
    | some v => simp
    | none =>
      cases setting? fields with
      | some v => simp
      | none => cases raw? fields <;> simp

/-- The contents of the keys of its form are read. -/
theorem clean_form {fields : List (String × Json)} {p : String × Json} (hp : p ∈ fields)
    {part : Place} (h : (form fields).lookup p.1 = some part) : part.Clean p.2 := by
  obtain ⟨before, behind, hmem, -⟩ := List.lookup_eq_some_iff.mp h
  replace hmem : (p.1, part) ∈ form fields := hmem ▸ List.mem_append_cons_self
  obtain ⟨v, hv, hform⟩ | ⟨-, v, hv, hform⟩ | ⟨-, -, v, hv, hform⟩ | ⟨-, -, -, v, hv, hform⟩ |
    ⟨-, -, -, -, hform⟩ := form_cases fields
  · rw [hform] at hmem
    obtain ⟨hkey, rfl⟩ := Prod.mk.inj (List.mem_singleton.mp hmem)
    obtain ⟨s, hs, -⟩ := Option.bind_eq_some_iff.mp hv
    exact clean_of_soleText hs hp hkey
  · rw [hform] at hmem
    obtain ⟨hkey, rfl⟩ := Prod.mk.inj (List.mem_singleton.mp hmem)
    obtain ⟨content, hsole, hrest⟩ := Option.bind_eq_some_iff.mp hv
    obtain ⟨c, hstrict, -⟩ := Option.bind_eq_some_iff.mp hrest
    rw [eq_of_sole hsole hp hkey]
    exact Place.clean_of_strict hstrict
  · rw [hform, List.mem_pair, Prod.mk.injEq, Prod.mk.injEq] at hmem
    obtain ⟨s, hs, hcast⟩ := Option.bind_eq_some_iff.mp hv
    obtain ⟨c, hc, -⟩ := Option.bind_eq_some_iff.mp hcast
    obtain ⟨hkey, rfl⟩ | ⟨hkey, rfl⟩ := hmem
    · exact clean_of_soleText hs hp hkey
    · have hany : (fields.any fun p => p.1 == "type") = true :=
        List.any_eq_true.mpr ⟨p, hp, beq_iff_eq.mpr hkey⟩
      rw [cast?, if_pos hany] at hc
      obtain ⟨content, hsole, hstrict⟩ := Option.bind_eq_some_iff.mp hc
      rw [eq_of_sole hsole hp hkey]
      exact Place.clean_of_strict hstrict
  · rw [hform] at hmem
    obtain ⟨hkey, rfl⟩ := Prod.mk.inj (List.mem_singleton.mp hmem)
    obtain ⟨s, hs, -⟩ := Option.map_eq_some_iff.mp hv
    exact clean_of_soleText hs hp hkey
  · rw [hform] at hmem
    cases hmem

mutual

/-- An operand is clean if it is read, in arrays and as an object. -/
theorem clean_of_ofJson : (j : Json) → {v : OperandDraft} → ofJson? j = some v →
    Place.operand.Clean j
  | .null, _, _ | .bool _, _, _ | .integer _, _, _ | .decimal _, _, _ | .text _, _, _ =>
    Place.clean_of_keys_nil rfl
  | .array items, _, h => by
    obtain ⟨vs, hvs, -⟩ := Option.map_eq_some_iff.mp h
    have hitems := clean_of_ofItems items hvs
    exact Place.clean_of_holds
      ⟨fun _ _ hv => hitems _ (List.mem_of_getElem? hv), nofun, nofun⟩
  | .object fields, _, _ =>
    Place.clean_of_holds ⟨nofun, fun _ hp _ hpart => clean_form hp hpart, fun _ _ _ => rfl⟩

theorem clean_of_ofItems : (js : List Json) → {vs : List OperandDraft} →
    ofItems? js = some vs → ∀ j ∈ js, Place.operand.Clean j
  | [], _, _ => nofun
  | j :: js, _, h => by
    obtain ⟨v, hv, hrest⟩ := Option.bind_eq_some_iff.mp h
    obtain ⟨vs, hvs, -⟩ := Option.bind_eq_some_iff.mp hrest
    exact List.forall_mem_cons.mpr ⟨clean_of_ofJson j hv, clean_of_ofItems js hvs⟩

end

/-- What is accepted as an operand is clean. -/
theorem ofJson_isReadBy : Place.operand.IsReadBy ofJson := by
  intro j v h
  unfold ofJson at h
  split at h
  next w hw => exact clean_of_ofJson j hw
  next => cases h

end OperandDraft

/-! ### Subqueries and predicates -/

section Predicates

variable {predicate : PredicateReader} (h : Place.predicate.IsReadBy predicate)

include h

/-- The fields of a join are clean if its condition is. -/
theorem JoinDraft.content_isReadBy (f : Field) : f.place.IsReadBy (content predicate f) := by
  cases f with
  | kind => exact Place.words_isReadBy JoinKind.words
  | table => exact Place.asText_isReadBy
  | aliasName => exact Place.asOption_isReadBy Place.asText_isReadBy
  | on => exact h

/-- A join that is read is clean, as it passes over no keys. -/
theorem JoinDraft.ofJson_isReadBy : Place.join.IsReadBy (ofJson predicate) :=
  Shape.record_isReadBy (fun _ => rfl) (content_isReadBy h) _

/-- The fields of a subquery are clean if its conditions are. -/
theorem SubqueryDraft.content_isReadBy (f : Field) : f.place.IsReadBy (content predicate f) := by
  cases f with
  | table => exact Place.asText_isReadBy
  | aliasName => exact Place.asOption_isReadBy Place.asText_isReadBy
  | columns => exact Place.asList_isReadBy Place.asText_isReadBy
  | join => exact Place.asOption_isReadBy (JoinDraft.ofJson_isReadBy h)
  | filter => exact Place.asOption_isReadBy h

/-- A subquery that is read is clean, as it passes over no keys. -/
theorem SubqueryDraft.ofJson_isReadBy : Place.subquery.IsReadBy (ofJson predicate) :=
  Shape.record_isReadBy (fun _ => rfl) (content_isReadBy h) _

/-- An argument is a column, which has no keys, or a predicate. -/
theorem ArgumentDraft.ofJson_isReadBy : Place.predicate.IsReadBy (ofJson predicate) := by
  intro j argument hread
  unfold ofJson at hread
  split at hread
  next => exact Place.clean_of_keys_nil rfl
  next =>
    split at hread
    next p hp => exact h j p hp
    next => cases hread

namespace PredicateDraft

/-- The fields of a predicate are clean if the predicates in it are. -/
theorem content_isReadBy (f : Field) : f.place.IsReadBy (content predicate f) := by
  cases f with
  | operand => exact OperandDraft.ofJson_isReadBy
  | values => exact Place.asOption_isReadBy (Place.asList_isReadBy OperandDraft.ofJson_isReadBy)
  | subquery => exact Place.asOption_isReadBy (SubqueryDraft.ofJson_isReadBy h)
  | select => exact Place.asOption_isReadBy Place.asText_isReadBy
  | date => exact Place.asOption_isReadBy Place.asInstant_isReadBy
  | args => exact Place.asList_isReadBy (ArgumentDraft.ofJson_isReadBy h)
  | members => exact Place.asList_isReadBy h
  | column | pattern | setting | joinTable | foreignKey | localKey | table | role | function =>
    exact Place.asText_isReadBy

/-- A predicate is clean if the record without its tag is read. -/
theorem clean_of_ofRecord {j rest : Json} {kind : Kind} {p : PredicateDraft}
    (hkind : kinds.ofJson j = .ok (kind, rest)) (hread : ofRecord predicate kind rest = .ok p) :
    Place.predicate.Clean j := by
  obtain ⟨slots, hslots, -⟩ := bind_eq_ok.mp hread
  have hrest := Shape.record_holds (content_isReadBy h) hslots fun _ => rfl
  refine Place.clean_of_holds ?_
  rw [Place.shape, hkind]
  exact Shape.tagged_holds hkind hrest

end PredicateDraft

end Predicates

namespace PredicateDraft

/-- The predicates in a predicate are read with less depth. -/
theorem ofJsonWithin_isReadBy (depth : Nat) : Place.predicate.IsReadBy (ofJsonWithin depth) := by
  induction depth with
  | zero => exact nofun
  | succ depth ih =>
    intro j p h
    obtain ⟨⟨kind, rest⟩, hkind, hread⟩ := bind_eq_ok.mp h
    exact clean_of_ofRecord ih hkind hread

/-- What is accepted as a predicate is clean, at any depth. -/
theorem ofJson_isReadBy : Place.predicate.IsReadBy ofJson :=
  fun j => ofJsonWithin_isReadBy j.height j

/-- A predicate read straight from the text is whole, and clean. -/
theorem ofReading_isReadFromText : Place.predicate.IsReadFromText ofReading := by
  intro r p h
  obtain ⟨⟨kind, rest⟩, hkind, hread⟩ := bind_eq_ok.mp h
  obtain ⟨j, hj, hkindJ⟩ := Json.Kinds.ofJson_of_ofReading hkind
  exact ⟨j, hj, clean_of_ofRecord ofJson_isReadBy hkindJ hread⟩

end PredicateDraft

/-! ### Policies, groups and manifests -/

namespace Template

/-- The fields of a template are words and texts. -/
theorem content_isReadBy (f : Field) : f.place.IsReadBy (content f) := by
  cases f with
  | command => exact Place.words_isReadBy Command.words
  | column | setting | role => exact Place.asText_isReadBy

/-- A template read straight from the text is whole, and clean. -/
theorem ofReading_isReadFromText : Place.template.IsReadFromText ofReading := by
  intro r t h
  obtain ⟨⟨kind, rest⟩, hkind, hread⟩ := bind_eq_ok.mp h
  obtain ⟨slots, hslots, -⟩ := bind_eq_ok.mp hread
  obtain ⟨j, hj, hkindJ⟩ := Json.Kinds.ofJson_of_ofReading hkind
  have hrest := Shape.record_holds content_isReadBy hslots fun _ => rfl
  refine ⟨j, hj, Place.clean_of_holds ?_⟩
  rw [Place.shape, hkindJ]
  exact Shape.tagged_holds hkindJ hrest

end Template

/-- The fields of a policy are read whole, and clean. -/
theorem PolicyDraft.content_isReadFromText (f : Field) : f.place.IsReadFromText (content f) := by
  cases f with
  | table => exact Place.asText_isReadFromText
  | template => exact Place.asOption_isReadFromText Template.ofReading_isReadFromText
  | command => exact Place.asOption_isReadFromText (Place.words_isReadFromText Command.words)
  | restrictive => exact Place.asBool_isReadFromText
  | name | role | description => exact Place.asOption_isReadFromText Place.asText_isReadFromText
  | usingExpr | checkExpr | allow =>
    exact Place.asOption_isReadFromText PredicateDraft.ofReading_isReadFromText

/-- A policy is read whole, and has no keys but its fields'. -/
theorem PolicyDraft.ofReading_isReadFromText : Place.policy.IsReadFromText ofReading :=
  Shape.record_isReadFromText (fun _ => rfl) rfl content_isReadFromText _

/-- The fields of a group are read whole, and clean. -/
theorem GroupDraft.content_isReadFromText (f : Field) : f.place.IsReadFromText (content f) := by
  cases f with
  | name => exact Place.asText_isReadFromText
  | description => exact Place.asOption_isReadFromText Place.asText_isReadFromText
  | policies => exact Place.asList_isReadFromText PolicyDraft.ofReading_isReadFromText

/-- A group is read whole, and has no keys but its fields'. -/
theorem GroupDraft.ofReading_isReadFromText : Place.group.IsReadFromText ofReading :=
  Shape.record_isReadFromText (fun _ => rfl) rfl content_isReadFromText _

namespace Manifest

/-- A manifest is read whole, and keys that name no field stand only where they are passed over. -/
theorem ofReading_isReadFromText : Place.manifest.IsReadFromText ofReading :=
  Shape.record_isReadFromText (fun _ => rfl) rfl
    (fun _ => Place.asList_isReadFromText GroupDraft.ofReading_isReadFromText) _

end Manifest

end RowPolicy
