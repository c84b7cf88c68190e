import RowPolicy.Json.Kinds
import RowPolicy.Proofs.Success

namespace RowPolicy.Json

/-!
# Accepted JSON

What readers of records, kinds and words have met in a text or a value that they accept, and
what they pass over.

* `Reading.wholes_of_forall`, `Reading.wholeFields_of_forall` — a whole value, part by part;
* `RecordType.readFields_ok`, `RecordType.readItems_ok` — every part of a record is read;
* `Kinds.ofJson_of_ofReading` — a kind straight from the text is that of the whole value;
* `RecordType.readFields_filter` — keys that name no field do not matter to a reader that
  passes them over.
-/

namespace Reading

/-! ### Whole values -/

/-- If each element is whole, so are they together. -/
theorem wholes_of_forall {P : Nat → Json → Prop} {items : List Reading}
    (h : ∀ i r, items[i]? = some r → ∃ j, r.whole = .ok j ∧ P i j) :
    ∃ js, wholes items = .ok js ∧ ∀ i j, js[i]? = some j → P i j := by
  induction items generalizing P with
  | nil => exact ⟨[], rfl, fun i j hj => by simp at hj⟩
  | cons r rs ih =>
    obtain ⟨j, hj, hP⟩ := h 0 r rfl
    obtain ⟨js, hjs, hPs⟩ := ih (P := fun i => P (i + 1)) fun i s hs => h (i + 1) s hs
    refine ⟨j :: js, by rw [wholes, hj, hjs]; rfl, fun i k hk => ?_⟩
    cases i with
    | zero => exact Option.some.inj hk ▸ hP
    | succ i => exact hPs i k hk

/-- If the content of each key is whole, so are the fields together. -/
theorem wholeFields_of_forall {P : String → Json → Prop} {fields : List (String × Reading)}
    (h : ∀ p ∈ fields, ∃ j, p.2.whole = .ok j ∧ P p.1 j) :
    ∃ js, wholeFields fields = .ok js ∧ ∀ p ∈ js, P p.1 p.2 := by
  induction fields with
  | nil => exact ⟨[], rfl, nofun⟩
  | cons p ps ih =>
    rw [List.forall_mem_cons] at h
    obtain ⟨j, hj, hP⟩ := h.1
    obtain ⟨js, hjs, hPs⟩ := ih h.2
    refine ⟨(p.1, j) :: js, by rw [wholeFields, wholeField, hj, hjs]; rfl, ?_⟩
    exact List.forall_mem_cons.mpr ⟨hP, hPs⟩

/-- An array is whole if all its items are. -/
theorem whole_array {items : List Reading} {js : List Json} (h : wholes items = .ok js) :
    (array items none).whole = .ok (.array js) := by
  rw [whole, h]
  rfl

/-- An object is whole if its fields are and it is closed. -/
theorem whole_object {fields : List (String × Reading)} {js : List (String × Json)}
    (h : wholeFields fields = .ok js) : (object fields .closed).whole = .ok (.object js) := by
  rw [whole, h]
  rfl

end Reading

/-- Only an object that is closed passes the check of its ending. -/
theorem Ending.check_eq_ok {ending : Ending} {u : Unit} :
    ending.check.mapError Fault.stopped = .ok u ↔ ending = .closed := by
  rw [mapError_eq_ok]
  cases ending <;> simp [check]

/-! ### Records -/

namespace RecordType

variable {F : Type} {Content : F → Type} {α : Type} [DecidableEq F] {r : RecordType F Content}
  {strict : Bool} {read : (f : F) → α → Except Fault (Content f)} {slots out : Slots Content}

/-- The content of a key that names a field is read; other keys are only passed over. -/
theorem readFields_ok {fields : List (String × α)}
    (h : r.readFields strict read slots fields = .ok out) : ∀ p ∈ fields,
      (r.field? p.1 = none → strict = false) ∧
        ∀ f, r.field? p.1 = some f → ∃ c, read f p.2 = .ok c := by
  induction fields generalizing slots with
  | nil => exact nofun
  | cons p rest ih =>
    obtain ⟨key, value⟩ := p
    rw [readFields] at h
    rw [List.forall_mem_cons]
    cases hfield : r.field? key with
    -- a key that names no field is passed over, unless the record is strict
    | none =>
      rw [hfield] at h
      cases strict with
      | true => cases h
      | false => exact ⟨⟨fun _ => rfl, nofun⟩, ih h⟩
    -- a field is read once, so it is not filled yet, and its content can be read
    | some f =>
      rw [hfield] at h
      dsimp only at h
      split at h
      · cases h
      · obtain ⟨c, hc, hrest⟩ := bind_eq_ok.mp h
        exact ⟨⟨nofun, fun g hg => Option.some.inj hg ▸ ⟨c, hc⟩⟩, ih hrest⟩

/-- If no elements are left, each of them is read as the content of a field. -/
theorem readItems_ok {stop : Option Stop} {place : Nat} {fs : List F} {items : List α}
    (h : r.readItems read stop place slots fs items = .ok (out, [])) :
    ∀ (i : Nat) (item : α), items[i]? = some item →
      ∃ f : F, fs[i]? = some f ∧ ∃ c, read f item = .ok c := by
  induction fs generalizing place slots items with
  | nil =>
    -- without fields that are left, a rest that is empty has no items
    have hnil : items = [] := congrArg Prod.snd (Except.ok.inj h)
    rw [hnil]
    simp
  | cons f fs ih =>
    cases items with
    | nil => simp
    | cons item items =>
      obtain ⟨c, hc, hrest⟩ := bind_eq_ok.mp h
      -- the first item fills the first field, and the others come behind it
      intro i next hnext
      cases i with
      | zero => exact ⟨f, rfl, Option.some.inj hnext ▸ ⟨c, hc⟩⟩
      | succ i => exact ih hrest i next hnext

/-- Keys that name no field, or some of them, may as well be left out. -/
theorem readFields_filter {admits : String → Bool}
    (hadmits : ∀ key, (r.field? key).isSome → admits key = true) (fields : List (String × α)) :
    r.readFields false read slots (fields.filter fun p => admits p.1) =
      r.readFields false read slots fields := by
  induction fields generalizing slots with
  | nil => rfl
  | cons p rest ih =>
    obtain ⟨key, value⟩ := p
    cases hfield : r.field? key with
    -- a key that names no field changes nothing, whether it is left out or passed over
    | none =>
      have hskip : r.readFields false read slots ((key, value) :: rest) =
          r.readFields false read slots rest := by
        rw [readFields, hfield]
        rfl
      rw [hskip, List.filter_cons]
      split
      · rw [readFields, hfield]
        exact ih
      · exact ih
    | some f =>
      -- a key that names a field is admitted, so it stands on both sides
      have hkey : admits key = true := hadmits key (by rw [hfield]; rfl)
      rw [List.filter_cons, if_pos hkey, readFields, readFields, hfield]
      simp only [ih]

end RecordType

/-! ### Kinds -/

namespace Kinds

variable {K α : Type} {k : Kinds K}

/-- A tag is a text that is the word of its kind. -/
theorem tag_eq_ok {r : Reading} {kind : K} (h : k.tag r = .ok kind) :
    ∃ word, r = .text word ∧ k.value word = .ok kind := by
  cases r with
  | text word => exact ⟨word, rfl, h⟩
  | _ => cases h

/-- A tag is a text or a number. -/
theorem tagOfJson_eq_ok {j : Json} {kind : K} (h : k.tagOfJson j = .ok kind) :
    (∃ word, j = .text word) ∨ ∃ n, j = .integer n := by
  cases j with
  | text word => exact .inl ⟨word, rfl⟩
  | integer n => exact .inr ⟨n, rfl⟩
  | _ => cases h

/-- Completing a reading succeeds exactly if there is a whole value. -/
theorem complete_eq_ok {r : Reading} {j : Json} : r.complete = .ok j ↔ r.whole = .ok j :=
  mapError_eq_ok

/-- A first field is the tag, and the only one, or it is kept. -/
theorem split_cons_eq_ok {readTag : α → Except Fault K} {keep : α → Except Fault Json}
    {known kind : Option K} {key : String} {value : α} {fields : List (String × α)}
    {rest : List (String × Json)} :
    split readTag keep known ((key, value) :: fields) = .ok (kind, rest) ↔
      (key = tagKey ∧ known = none ∧ ∃ found, readTag value = .ok found ∧
        split readTag keep (some found) fields = .ok (kind, rest)) ∨
      (key ≠ tagKey ∧ ∃ content others, keep value = .ok content ∧
        split readTag keep known fields = .ok (kind, others) ∧
        rest = (key, content) :: others) := by
  conv_lhs => unfold split
  dsimp only
  split
  -- a second tag is refused, and a first one becomes known
  next hkey =>
    cases known with
    | some known => simp [hkey]
    | none => simp [hkey, bind_eq_ok]
  -- any other field is kept as it is
  next hkey =>
    simp only [hkey, false_and, false_or, not_false_iff, true_and, ne_eq, bind_eq_ok, pure_eq_ok,
      Prod.exists, Prod.mk.injEq]
    constructor
    · rintro ⟨content, hcontent, found, others, hothers, rfl, rfl⟩
      exact ⟨content, others, hcontent, hothers, rfl⟩
    · rintro ⟨content, others, hcontent, hothers, rfl⟩
      exact ⟨content, hcontent, kind, others, hothers, rfl, rfl⟩

/-- Each field is the tag or one of the others. -/
theorem mem_of_split {readTag : α → Except Fault K} {keep : α → Except Fault Json}
    {known kind : Option K} {fields : List (String × α)} {rest : List (String × Json)}
    (h : split readTag keep known fields = .ok (kind, rest)) : ∀ p ∈ fields,
      (p.1 = tagKey ∧ ∃ found, readTag p.2 = .ok found) ∨
        (p.1 ≠ tagKey ∧ ∃ content, keep p.2 = .ok content ∧ (p.1, content) ∈ rest) := by
  induction fields generalizing known rest with
  | nil => exact nofun
  | cons p fields ih =>
    rw [List.forall_mem_cons]
    obtain ⟨hkey, -, found, hfound, hfields⟩ | ⟨hkey, content, others, hcontent, hothers, rfl⟩ :=
      split_cons_eq_ok.mp h
    -- the field is the tag, and the others are those of the rest
    · exact ⟨.inl ⟨hkey, found, hfound⟩, ih hfields⟩
    · refine ⟨.inr ⟨hkey, content, hcontent, List.mem_cons_self⟩, fun q hq => ?_⟩
      exact (ih hothers q hq).imp_right fun ⟨hq, c, hc, hmem⟩ =>
        ⟨hq, c, hc, List.mem_cons_of_mem _ hmem⟩

/-- To split fields straight from the text is to split those of the whole value. -/
theorem split_whole {known kind : Option K} {fields : List (String × Reading)}
    {rest : List (String × Json)}
    (h : split k.tag Reading.complete known fields = .ok (kind, rest)) :
    ∃ js, Reading.wholeFields fields = .ok js ∧
      split k.tagOfJson .ok known js = .ok (kind, rest) := by
  induction fields generalizing known rest with
  | nil => exact ⟨[], rfl, h⟩
  | cons p fields ih =>
    obtain ⟨key, value⟩ := p
    obtain ⟨hkey, hknown, found, hfound, hfields⟩ |
      ⟨hkey, content, others, hcontent, hothers, hrest⟩ := split_cons_eq_ok.mp h
    -- a tag is a text, so it is whole
    · obtain ⟨word, rfl, hword⟩ := tag_eq_ok hfound
      obtain ⟨js, hjs, hsplit⟩ := ih hfields
      refine ⟨(key, .text word) :: js, by rw [Reading.wholeFields, hjs]; rfl, ?_⟩
      exact split_cons_eq_ok.mpr (.inl ⟨hkey, hknown, found, hword, hsplit⟩)
    -- a field that is kept is complete, so it is whole
    · obtain ⟨js, hjs, hsplit⟩ := ih hothers
      refine ⟨(key, content) :: js, ?_, ?_⟩
      · rw [Reading.wholeFields, Reading.wholeField, complete_eq_ok.mp hcontent, hjs]
        rfl
      · exact split_cons_eq_ok.mpr (.inr ⟨hkey, content, others, rfl, hsplit, hrest⟩)

/-- A record that is read as a kind straight from the text is whole, and of the same kind. -/
theorem ofJson_of_ofReading {r : Reading} {kind : K} {rest : Json}
    (h : k.ofReading r = .ok (kind, rest)) :
    ∃ j, r.whole = .ok j ∧ k.ofJson j = .ok (kind, rest) := by
  cases r with
  -- an object has its tag among the fields
  | object fields ending =>
    obtain ⟨⟨found, others⟩, hsplit, hrest⟩ := bind_eq_ok.mp h
    obtain ⟨_, hending, htagged⟩ := bind_eq_ok.mp hrest
    obtain rfl := Ending.check_eq_ok.mp hending
    obtain ⟨js, hjs, hsplitJs⟩ := split_whole hsplit
    refine ⟨.object js, Reading.whole_object hjs, ?_⟩
    rw [ofJson, hsplitJs]
    exact htagged
  -- an array has its tag in front
  | array items stop =>
    cases items with
    | nil => cases stop <;> cases h
    | cons first items =>
      obtain ⟨found, hfound, hrest⟩ := bind_eq_ok.mp h
      obtain ⟨word, rfl, hword⟩ := tag_eq_ok hfound
      obtain ⟨whole, hwhole, hpair⟩ := bind_eq_ok.mp hrest
      obtain ⟨js, hjs, hstop⟩ := bind_eq_ok.mp (complete_eq_ok.mp hwhole)
      cases stop with
      | some stop => cases hstop
      | none =>
        obtain rfl := Except.ok.inj hstop
        refine ⟨.array (.text word :: js), Reading.whole_array ?_, ?_⟩
        · rw [Reading.wholes, hjs]
          rfl
        · rw [ofJson, tagOfJson, hword]
          exact hpair
  | _ => cases h

end Kinds

/-! ### Words -/

namespace Words

variable {K : Type} {w : Words K}

/-- A word that is read as a value is one of the words. -/
theorem value_eq_some {word : String} {a : K} (h : w.value? word = some a) :
    word ∈ w.every.map w.word := by
  have hmem := List.mem_of_find?_eq_some h
  have hword : w.word a = word := by simpa using List.find?_some (p := fun a => w.word a == word) h
  exact List.mem_map.mpr ⟨a, hmem, hword⟩

/-- So is a word that is accepted as a value. -/
theorem value_eq_ok {word : String} {a : K} (h : w.value word = .ok a) :
    word ∈ w.every.map w.word := by
  unfold value at h
  split at h
  next hvalue => exact value_eq_some hvalue
  next => cases h

end Words

end RowPolicy.Json
