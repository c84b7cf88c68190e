import RowPolicy.Proofs.Manifest.Places

namespace RowPolicy

/-!
# Contents and records without loose keys

What a reader accepts is clean if it has keys only where they name something or are passed
over.  Readers are put together from a few that know nothing of manifests:

* `Manifest.Place.IsReadBy`, `Manifest.Place.IsReadFromText` — what a reader accepts is clean;
* `Manifest.Place.asList_isReadBy`, `Manifest.Place.words_isReadBy`, ... — texts, lists, what may
  be missing, and words;
* `Manifest.Shape.record_holds`, `Manifest.Shape.tagged_holds` — records, without and with a tag;
* `Manifest.Shape.record_isReadBy`, `Manifest.Shape.record_isReadFromText` — so a record is read
  clean if its fields are.
-/

open Json (Reading)

namespace Manifest

namespace Place

variable {α : Type}

/-- What a reader accepts is clean where it is read as this. -/
def IsReadBy (place : Place) (read : Json → Except Json.Fault α) : Prop :=
  ∀ j a, read j = .ok a → place.Clean j

/-- What a reader accepts straight from the text is whole, and clean. -/
def IsReadFromText (place : Place) (read : Reading → Except Json.Fault α) : Prop :=
  ∀ r a, read r = .ok a → ∃ j, r.whole = .ok j ∧ place.Clean j

/-! ### Contents -/

/-- A text has no keys. -/
theorem asText_isReadBy : plain.IsReadBy Json.asText := by
  intro j s h
  cases j with
  | text s => exact clean_of_keys_nil rfl
  | _ => cases h

/-- An instant has no keys, as it is a text. -/
theorem asInstant_isReadBy : plain.IsReadBy Json.asInstant := by
  intro j t h
  cases j with
  | text s => exact clean_of_keys_nil rfl
  | _ => cases h

/-- A value that may be missing is clean if the value itself is. -/
theorem asOption_isReadBy {place : Place} {read : Json → Except Json.Fault α}
    (h : place.IsReadBy read) : place.IsReadBy fun j => j.asOption read := by
  intro j a hread
  cases j with
  | null => exact clean_of_keys_nil rfl
  | _ =>
    obtain ⟨b, hb, -⟩ := map_eq_ok.mp hread
    exact h _ b hb

/-- The elements of a list are clean if each of them is read. -/
theorem clean_list {place : Place} {items : List Json}
    (h : ∀ j ∈ items, place.Clean j) : (list place).Clean (.array items) :=
  clean_of_holds ⟨fun _ _ hv => h _ (List.mem_of_getElem? hv), nofun, nofun⟩

/-- A list is clean if each element is read. -/
theorem asList_isReadBy {place : Place} {read : Json → Except Json.Fault α}
    (h : place.IsReadBy read) : (list place).IsReadBy fun j => j.asList read := by
  intro j xs hread
  cases j with
  | array items =>
    have hall := (forall₂_ok_iff.mp (mapM_eq_ok.mp hread)).1
    exact clean_list fun j hj => (hall j hj).elim fun a ha => h j a ha
  | _ => cases hread

/-- A text is read whole, and has no keys. -/
theorem asText_isReadFromText : plain.IsReadFromText Reading.asText := by
  intro r s h
  cases r with
  | text s => exact ⟨_, rfl, clean_of_keys_nil rfl⟩
  | _ => cases h

/-- A truth value is read whole, and has no keys. -/
theorem asBool_isReadFromText : plain.IsReadFromText Reading.asBool := by
  intro r b h
  cases r with
  | bool b => exact ⟨_, rfl, clean_of_keys_nil rfl⟩
  | _ => cases h

/-- A value that may be missing is read whole if it is begun and read. -/
theorem asOption_isReadFromText {place : Place} {read : Reading → Except Json.Fault α}
    (h : place.IsReadFromText read) : place.IsReadFromText fun r => r.asOption read := by
  intro r a hread
  have hsome (hmap : (read r).map some = .ok a) : ∃ j, r.whole = .ok j ∧ place.Clean j := by
    obtain ⟨b, hb, -⟩ := map_eq_ok.mp hmap
    exact h r b hb
  -- only a value that is begun and cut short may be neither missing nor whole
  cases r with
  | null => exact ⟨_, rfl, clean_of_keys_nil rfl⟩
  | cut begun stop =>
    cases begun with
    | null => cases hread
    | _ => exact hsome hread
  | _ => exact hsome hread

/-- A list is read whole if it is closed and each element is read whole. -/
theorem asList_isReadFromText {place : Place} {read : Reading → Except Json.Fault α}
    (h : place.IsReadFromText read) : (list place).IsReadFromText fun r => r.asList read := by
  intro r xs hread
  cases r with
  | array items stop =>
    -- the elements are read first, and the list has to be closed behind them
    obtain ⟨ys, hys, hstop⟩ := bind_eq_ok.mp hread
    cases stop with
    | some stop => cases hstop
    | none =>
      have hall := (forall₂_ok_iff.mp (mapM_eq_ok.mp hys)).1
      obtain ⟨js, hjs, hclean⟩ := Reading.wholes_of_forall (P := fun _ => place.Clean)
        fun i r hr => (hall r (List.mem_of_getElem? hr)).elim fun a ha => h r a ha
      refine ⟨.array js, Reading.whole_array hjs, clean_list fun j hj => ?_⟩
      obtain ⟨i, hi⟩ := List.getElem?_of_mem hj
      exact hclean i j hi
  | _ => cases hread

/-! ### Words -/

/-- A word alone, or as the only key of an object without content. -/
theorem clean_word {w : Json.Words α} {key : String} {content : Json}
    (hkey : key ∈ w.every.map w.word) (hcontent : content.keys = []) :
    (ofWords w).Clean (.object [(key, content)]) := by
  have hpart : ((ofWords w).shape (.object [(key, content)])).part? key = some .plain :=
    if_pos hkey
  refine clean_of_holds ⟨nofun, fun p hp part _ => ?_, fun p hp hnone => ?_⟩
  · obtain rfl := List.mem_singleton.mp hp
    exact clean_of_keys_nil hcontent
  · obtain rfl := List.mem_singleton.mp hp
    rw [hpart] at hnone
    cases hnone

/-- A word stands alone, or as the one key of an object without content. -/
theorem words_isReadBy (w : Json.Words α) : (ofWords w).IsReadBy w.ofJson := by
  intro j a h
  cases j with
  | text word => exact clean_of_keys_nil rfl
  | object fields =>
    match fields, h with
    -- the one key is a word, with nothing or an empty object behind it
    | [(key, content)], h =>
      obtain ⟨b, hb, hcontent⟩ := bind_eq_ok.mp h
      obtain ⟨_, hempty, -⟩ := bind_eq_ok.mp hcontent
      refine clean_word (Json.Words.value_eq_ok hb) ?_
      unfold Json.Words.emptyContent at hempty
      split at hempty
      · rfl
      · rfl
      · cases hempty
  | _ => cases h

/-- What is accepted as a word alone is clean. -/
theorem clean_of_strict {w : Json.Words α} {j : Json} {a : α} (h : w.strict? j = some a) :
    (ofWords w).Clean j := by
  unfold Json.Words.strict? at h
  split at h
  · exact clean_of_keys_nil rfl
  · exact clean_word (Json.Words.value_eq_some h) rfl
  · cases h

/-- A word is read whole, in both its forms. -/
theorem words_isReadFromText (w : Json.Words α) : (ofWords w).IsReadFromText w.ofReading := by
  intro r a h
  cases r with
  | text word => exact ⟨_, rfl, clean_of_keys_nil rfl⟩
  | object fields ending =>
    match fields, ending, h with
    | (key, content) :: rest, ending, h =>
      obtain ⟨b, hb, hcontent⟩ := bind_eq_ok.mp h
      obtain ⟨_, hnothing, hrest⟩ := bind_eq_ok.mp hcontent
      -- behind the word stands nothing but null, and nothing behind that
      have hnull : content = .null := by
        cases content with
        | null => rfl
        | _ => cases hnothing
      match rest, ending, hrest with
      | [], .closed, _ =>
        refine ⟨.object [(key, .null)], ?_, clean_word (Json.Words.value_eq_ok hb) rfl⟩
        rw [hnull]
        rfl
  | cut begun stop => cases begun <;> cases h
  | _ => cases h

end Place

/-! ### Records -/

namespace Shape

variable {F : Type} {Content : F → Type} {r : Json.RecordType F Content} {place : F → Place}

/-- An object whose keys all name fields. -/
theorem record_holds_object {fields : List (String × Json)}
    (h : ∀ p ∈ fields, ∃ f, r.field? p.1 = some f ∧ (place f).Clean p.2) :
    (record r place).Holds false (.object fields) := by
  refine ⟨nofun, fun p hp part hpart => ?_, fun p hp hpart => ?_⟩
  · obtain ⟨f, hf, hclean⟩ := h p hp
    obtain ⟨g, hg, rfl⟩ := Option.map_eq_some_iff.mp hpart
    obtain rfl : f = g := Option.some.inj (hf.symm.trans hg)
    exact hclean
  · obtain ⟨f, hf, -⟩ := h p hp
    rw [Option.map_eq_none_iff.mp hpart] at hf
    cases hf

/-- An array of no more elements than there are fields has no keys of its own. -/
theorem record_holds_array {loose : Bool} {items : List Json}
    (h : ∀ (i : Nat) (v : Json), items[i]? = some v →
      ∃ f, r.fields[i]? = some f ∧ (place f).Clean v) :
    (record r place).Holds loose (.array items) := by
  refine ⟨fun i v hv => ?_, nofun, nofun⟩
  obtain ⟨f, hf, hclean⟩ := h i v hv
  simp only [record, hf, Option.map_some, Option.getD_some]
  exact hclean

variable [DecidableEq F] {slots : Json.RecordType.Slots Content}

/-- The fields of a record are read, and other keys are at most passed over. -/
theorem record_holds {read : (f : F) → Json → Except Json.Fault (Content f)}
    (hread : ∀ f, (place f).IsReadBy (read f)) {strict loose : Bool} {j : Json}
    (h : r.ofJson strict read j = .ok slots) (hloose : strict = false → loose = true) :
    (record r place).Holds loose j := by
  cases j with
  | object fields =>
    -- a key that names a field is read as that field, and any other is passed over
    have hfields := Json.RecordType.readFields_ok h
    refine ⟨nofun, fun p hp part hpart => ?_, fun p hp hpart => ?_⟩
    · obtain ⟨f, hf, rfl⟩ := Option.map_eq_some_iff.mp hpart
      obtain ⟨c, hc⟩ := (hfields p hp).2 f hf
      exact hread f _ c hc
    · exact hloose ((hfields p hp).1 (Option.map_eq_none_iff.mp hpart))
  -- a record may be written as a list, whose elements are its fields in order
  | array items =>
    obtain ⟨⟨out, extra⟩, hitems, hextra⟩ := bind_eq_ok.mp h
    have hnil : extra = [] := by
      cases extra with
      | nil => rfl
      | cons _ _ => cases hextra
    subst hnil
    refine record_holds_array fun i v hv => ?_
    obtain ⟨f, hf, c, hc⟩ := Json.RecordType.readItems_ok hitems i v hv
    exact ⟨f, hf, hread f v c hc⟩
  | _ => cases h

/-- Straight from the text, no other keys are admitted. -/
theorem record_holds_of_ofReading {read : (f : F) → Reading → Except Json.Fault (Content f)}
    (hread : ∀ f, (place f).IsReadFromText (read f)) {value : Reading}
    (h : r.ofReading read value = .ok slots) :
    ∃ j, value.whole = .ok j ∧ (record r place).Holds false j := by
  cases value with
  -- an object has to be closed, and the fields read in it are whole
  | object fields ending =>
    obtain ⟨out, hout, hending⟩ := bind_eq_ok.mp h
    obtain ⟨_, hclosed, -⟩ := bind_eq_ok.mp hending
    obtain rfl := Json.Ending.check_eq_ok.mp hclosed
    have hfields := Json.RecordType.readFields_ok hout
    obtain ⟨js, hjs, hall⟩ := Reading.wholeFields_of_forall
      (P := fun key j => ∃ f, r.field? key = some f ∧ (place f).Clean j) fun p hp => by
        obtain ⟨hnone, hsome⟩ := hfields p hp
        cases hf : r.field? p.1 with
        | none => cases hnone hf
        | some f =>
          obtain ⟨c, hc⟩ := hsome f hf
          obtain ⟨j, hj, hclean⟩ := hread f p.2 c hc
          exact ⟨j, hj, f, rfl, hclean⟩
    exact ⟨.object js, Reading.whole_object hjs, record_holds_object hall⟩
  | array items stop =>
    obtain ⟨⟨out, extra⟩, hitems, hextra⟩ := bind_eq_ok.mp h
    match extra, stop, hextra with
    | [], none, _ =>
      have hall := Json.RecordType.readItems_ok hitems
      obtain ⟨js, hjs, hclean⟩ := Reading.wholes_of_forall
        (P := fun i j => ∃ f, r.fields[i]? = some f ∧ (place f).Clean j) fun i v hv => by
          obtain ⟨f, hf, c, hc⟩ := hall i v hv
          obtain ⟨j, hj, hcleanj⟩ := hread f v c hc
          exact ⟨j, hj, f, hf, hcleanj⟩
      exact ⟨.array js, Reading.whole_array hjs, record_holds_array hclean⟩
  | _ => cases h

/-- A reader of records without a tag, whatever it makes of the slots. -/
theorem record_isReadBy {α : Type} {p : Place} (hshape : ∀ j, p.shape j = record r place)
    {read : (f : F) → Json → Except Json.Fault (Content f)}
    (hread : ∀ f, (place f).IsReadBy (read f))
    (build : Json.RecordType.Slots Content → Except Json.Fault α) :
    p.IsReadBy fun j => r.ofJson true read j >>= build := by
  intro j a h
  obtain ⟨slots, hslots, -⟩ := bind_eq_ok.mp h
  refine Place.clean_of_holds ?_
  rw [hshape]
  exact record_holds hread hslots nofun

/-- A reader of records straight from the text, whatever it makes of the slots. -/
theorem record_isReadFromText {α : Type} {p : Place} (hshape : ∀ j, p.shape j = record r place)
    (hstrict : p.isLoose = false) {read : (f : F) → Reading → Except Json.Fault (Content f)}
    (hread : ∀ f, (place f).IsReadFromText (read f))
    (build : Json.RecordType.Slots Content → Except Json.Fault α) :
    p.IsReadFromText fun value => r.ofReading read value >>= build := by
  intro value a h
  obtain ⟨slots, hslots, -⟩ := bind_eq_ok.mp h
  obtain ⟨j, hj, hholds⟩ := record_holds_of_ofReading hread hslots
  refine ⟨j, hj, Place.clean_of_holds ?_⟩
  rwa [hshape, hstrict]

/-- The tag is a word or a number; the other parts are those of the rest. -/
theorem tagged_holds {K : Type} {k : Json.Kinds K} {s : Shape} {j rest : Json} {kind : K}
    (h : k.ofJson j = .ok (kind, rest)) (hrest : s.Holds true rest) : s.tagged.Holds true j := by
  -- the tag itself has no keys, written as a word or as a number
  have htag {v : Json} {found : K} (hv : k.tagOfJson v = .ok found) : Place.plain.Clean v := by
    obtain ⟨word, rfl⟩ | ⟨n, rfl⟩ := Json.Kinds.tagOfJson_eq_ok hv
    · exact Place.clean_of_keys_nil rfl
    · exact Place.clean_of_keys_nil rfl
  cases j with
  | object fields =>
    obtain ⟨⟨found, others⟩, hsplit, hpair⟩ := bind_eq_ok.mp h
    obtain ⟨_, -, hkind⟩ := bind_eq_ok.mp hpair
    obtain ⟨rfl, rfl⟩ := Prod.mk.inj (Except.ok.inj hkind)
    refine ⟨nofun, fun p hp part hpart => ?_, fun _ _ _ => rfl⟩
    -- a field is the tag, or is left over for the record of the kind
    obtain ⟨hkey, found, hfound⟩ | ⟨hkey, content, hcontent, hmem⟩ :=
      Json.Kinds.mem_of_split hsplit p hp
    · obtain rfl := Option.some.inj ((if_pos hkey).symm.trans hpart)
      exact htag hfound
    · replace hpart := (if_neg hkey).symm.trans hpart
      obtain rfl := Except.ok.inj hcontent
      exact hrest.declared _ hmem part hpart
  | array items =>
    cases items with
    | nil => cases h
    | cons first items =>
      obtain ⟨found, hfound, hpair⟩ := bind_eq_ok.mp h
      obtain ⟨rfl, rfl⟩ := Prod.mk.inj (Except.ok.inj hpair)
      refine ⟨fun i v hv => ?_, nofun, nofun⟩
      cases i with
      | zero => exact Option.some.inj hv ▸ htag hfound
      | succ i => exact hrest.items i v hv
  | _ => cases h

end Shape

end Manifest

end RowPolicy
