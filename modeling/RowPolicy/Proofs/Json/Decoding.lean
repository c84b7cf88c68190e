import RowPolicy.Json.Kinds
import RowPolicy.Proofs.Json.Widening

namespace RowPolicy.Json

/-!
# Contents, words, records and kinds, with integers widened

Whoever reads texts, words, records and kinds takes no notice of how numbers are read: a
reader of these succeeds on a widened value if it does on the value itself, provided that the
readers of the parts do.

* `Reading.asList_widen`, `asOption_widen` and their like — contents of fields;
* `Words.ofReading_widen`, `Words.ofJson_widen` — words;
* `RecordType.ofReading_widen`, `RecordType.ofJson_widen` — records;
* `Kinds.ofReading_widen`, `Kinds.ofJson_widen` — records told by their kind.
-/

variable {α β ε : Type} {μ : α → β}

/-! ### Contents in a text -/

namespace Reading

/-- A reader that takes no numbers takes no widened integer. -/
theorem mirrors_integer {read : Reading → Except Fault α} {read' : Reading → Except Fault β}
    (n : Int) (h : (read (.integer n)).toOption = none)
    (hinteger : (read' (.integer n)).toOption = none)
    (hdecimal : ∀ x, (read' (.decimal x)).toOption = none) :
    Mirrors μ (read (.integer n)) (read' (widen (.integer n))) := by
  rw [widen, Mirrors, h]
  obtain hn | ⟨x, hn⟩ := ofInteger_cases n
  · rw [hn, hinteger, Option.map_none]
  · rw [hn, hdecimal, Option.map_none]

/-- A text is read from a reading whatever its integers are read as. -/
theorem asText_widen (r : Reading) : Mirrors id r.asText r.widen.asText := by
  cases r with
  | integer n => exact mirrors_integer n rfl rfl fun _ => rfl
  | text s => exact mirrors_ok s
  | _ => rfl

/-- So is a truth value. -/
theorem asBool_widen (r : Reading) : Mirrors id r.asBool r.widen.asBool := by
  cases r with
  | integer n => exact mirrors_integer n rfl rfl fun _ => rfl
  | bool b => exact mirrors_ok b
  | _ => rfl

/-- Whether something is there does not depend on how integers are read. -/
theorem asOption_widen {read : Reading → Except Fault α} {read' : Reading → Except Fault β}
    (h : ∀ r, Mirrors μ (read r) (read' r.widen)) (r : Reading) :
    Mirrors (Option.map μ) (r.asOption read) (r.widen.asOption read') := by
  have hsome (r : Reading) :
      Mirrors (Option.map μ) ((read r).map some) ((read' r.widen).map some) :=
    (h r).map fun _ => rfl
  cases r with
  | null => rfl
  | integer n =>
    -- an integer is something, whether it is kept or becomes a float
    have hn := hsome (.integer n)
    rw [widen] at hn ⊢
    obtain hkept | ⟨x, hkept⟩ := ofInteger_cases n <;> rw [hkept] at hn ⊢ <;> exact hn
  | cut begun stop =>
    -- a `null` that was begun counts as nothing
    cases begun with
    | null => rfl
    | _ => exact hsome _
  | _ => exact hsome _

/-- The same where the content stays what it is. -/
theorem asOption_widen_id {read : Reading → Except Fault α}
    (h : ∀ r, Mirrors id (read r) (read r.widen)) (r : Reading) :
    Mirrors id (r.asOption read) (r.widen.asOption read) := by
  rw [← Option.map_id]
  exact asOption_widen h r

/-- A list is read item by item. -/
theorem asList_widen {read : Reading → Except Fault α} {read' : Reading → Except Fault β}
    (h : ∀ r, Mirrors μ (read r) (read' r.widen)) (r : Reading) :
    Mirrors (List.map μ) (r.asList read) (r.widen.asList read') := by
  cases r with
  | integer n => exact mirrors_integer n rfl rfl fun _ => rfl
  | array items stop =>
    rw [widen, widens_eq_map, asList, asList]
    refine (Mirrors.mapM h items).bind fun xs => ?_
    cases stop with
    | none => exact mirrors_ok xs
    | some stop => exact mirrors_error _ _
  | _ => rfl

end Reading

/-! ### Contents in a value -/

/-- A reader that takes no numbers takes no widened integer. -/
theorem mirrors_integer {read : Json → Except Fault α} {read' : Json → Except Fault β}
    (n : Int) (h : (read (.integer n)).toOption = none)
    (hinteger : (read' (.integer n)).toOption = none)
    (hdecimal : ∀ x, (read' (.decimal x)).toOption = none) :
    Mirrors μ (read (.integer n)) (read' (widen (.integer n))) := by
  rw [widen, Mirrors, h]
  obtain hn | ⟨-, x, hn⟩ := ofInteger_cases n
  · rw [hn, hinteger, Option.map_none]
  · rw [hn, hdecimal, Option.map_none]

/-- A text is read from a value whatever its integers are read as. -/
theorem asText_widen (j : Json) : Mirrors id j.asText j.widen.asText := by
  cases j with
  | integer n => exact mirrors_integer n rfl rfl fun _ => rfl
  | text s => exact mirrors_ok s
  | _ => rfl

/-- Whether something is there in a value does not depend on how integers are read. -/
theorem asOption_widen {read : Json → Except Fault α} {read' : Json → Except Fault β}
    (h : ∀ j, Mirrors μ (read j) (read' j.widen)) (j : Json) :
    Mirrors (Option.map μ) (j.asOption read) (j.widen.asOption read') := by
  have hsome (j : Json) : Mirrors (Option.map μ) ((read j).map some) ((read' j.widen).map some) :=
    (h j).map fun _ => rfl
  cases j with
  | null => rfl
  | integer n =>
    have hn := hsome (.integer n)
    rw [widen] at hn ⊢
    obtain hkept | ⟨-, x, hkept⟩ := ofInteger_cases n <;> rw [hkept] at hn ⊢ <;> exact hn
  | _ => exact hsome _

/-- The same where the content of a value stays what it is. -/
theorem asOption_widen_id {read : Json → Except Fault α}
    (h : ∀ j, Mirrors id (read j) (read j.widen)) (j : Json) :
    Mirrors id (j.asOption read) (j.widen.asOption read) := by
  rw [← Option.map_id]
  exact asOption_widen h j

/-- A list of values is read item by item. -/
theorem asList_widen {read : Json → Except Fault α} {read' : Json → Except Fault β}
    (h : ∀ j, Mirrors μ (read j) (read' j.widen)) (j : Json) :
    Mirrors (List.map μ) (j.asList read) (j.widen.asList read') := by
  cases j with
  | integer n => exact mirrors_integer n rfl rfl fun _ => rfl
  | array items =>
    rw [widen, widens_eq_map]
    exact Mirrors.mapM h items
  | _ => rfl

/-- The same where the items stay what they are. -/
theorem asList_widen_id {read : Json → Except Fault α}
    (h : ∀ j, Mirrors id (read j) (read j.widen)) (j : Json) :
    Mirrors id (j.asList read) (j.widen.asList read) := by
  rw [← List.map_id_fun]
  exact asList_widen h j

/-- An instant is written as a text, so it does not depend on integers. -/
theorem asInstant_widen (j : Json) : Mirrors id j.asInstant j.widen.asInstant := by
  cases j with
  | integer n => exact mirrors_integer n rfl rfl fun _ => rfl
  | text s => exact mirrors_refl _
  | _ => rfl

/-! ### Words -/

namespace Words

variable {K : Type}

/-- Where nothing is expected, an integer is as wrong as a float. -/
theorem nothing_widen (r : Reading) : Mirrors id (nothing r) (nothing r.widen) := by
  cases r with
  | integer n => exact Reading.mirrors_integer n rfl rfl fun _ => rfl
  | _ => rfl

/-- A word as the only key of an object does not depend on integers. -/
theorem objectOfReading_widen (w : Words K) (fields : List (String × Reading)) (ending : Ending) :
    Mirrors id (w.objectOfReading fields ending)
      (w.objectOfReading (Reading.widenFields fields) ending) := by
  cases fields with
  | nil => exact mirrors_refl _
  | cons p rest =>
    obtain ⟨word, content⟩ := p
    rw [Reading.widenFields, Reading.widenField, objectOfReading, objectOfReading]
    refine (mirrors_refl (w.value word)).bind fun a => (nothing_widen content).bind fun _ => ?_
    cases rest with
    | nil => exact mirrors_refl _
    | cons q rest => cases ending <;> rfl

/-- A word is read from a reading whatever its integers are read as. -/
theorem ofReading_widen (w : Words K) (r : Reading) :
    Mirrors id (w.ofReading r) (w.ofReading r.widen) := by
  cases r with
  | integer n => exact Reading.mirrors_integer n rfl rfl fun _ => rfl
  | text word => exact mirrors_refl _
  | object fields ending => exact w.objectOfReading_widen fields ending
  | cut begun stop => exact mirrors_refl _
  | _ => rfl

/-- No integer is the empty content of a word. -/
theorem emptyContent_widen (j : Json) : Mirrors id (emptyContent j) (emptyContent j.widen) := by
  cases j with
  | integer n => exact mirrors_integer n rfl rfl fun _ => rfl
  | object fields => cases fields <;> rfl
  | _ => rfl

/-- A word is read from a value whatever its integers are read as. -/
theorem ofJson_widen (w : Words K) (j : Json) : Mirrors id (w.ofJson j) (w.ofJson j.widen) := by
  cases j with
  | integer n => exact mirrors_integer n rfl rfl fun _ => rfl
  | text word => exact mirrors_refl _
  | object fields =>
    -- only an object with a single key can be a word
    match fields with
    | [] => rfl
    | [(word, content)] =>
      exact (mirrors_refl (w.value word)).bind fun a =>
        (emptyContent_widen content).bind fun _ => mirrors_ok a
    | _ :: _ :: _ => rfl
  | _ => rfl

/-- Neither does the strict form of a word depend on integers. -/
theorem strict_widen (w : Words K) (j : Json) : w.strict? j.widen = w.strict? j := by
  cases j with
  | integer n =>
    rw [widen]
    obtain hn | ⟨-, x, hn⟩ := ofInteger_cases n
    · rw [hn]
    · rw [hn]
      rfl
  | object fields =>
    match fields with
    | [] => rfl
    | [(word, content)] =>
      cases content with
      | integer n =>
        -- the content is no object either way
        rw [widen, widenFields, widenField, widen]
        obtain hn | ⟨-, x, hn⟩ := ofInteger_cases n <;> rw [hn] <;> rfl
      | _ => rfl
    | _ :: _ :: _ => simp [widen, widenFields, strict?]
  | _ => rfl

end Words

/-! ### Records -/

namespace RecordType

variable {F : Type} {Content : F → Type} {μ : (f : F) → Content f → Content f}

/-- The slots with their contents mapped. -/
def Slots.map (μ : (f : F) → Content f → Content f) (slots : Slots Content) : Slots Content :=
  fun f => (slots f).map (μ f)

/-- A slot is filled before or after its contents are changed. -/
theorem Slots.map_put [DecidableEq F] (slots : Slots Content) (f : F) (c : Content f) :
    (slots.put f c).map μ = (slots.map μ).put f (μ f c) := by
  funext g
  by_cases h : f = g
  · subst h
    simp [map, put]
  · simp [map, put, h]

/-- Contents that stay what they are leave the slots as they are. -/
theorem Slots.map_id (slots : Slots Content) : slots.map (fun _ => id) = slots := by
  funext f
  exact Option.map_id_apply

/-- A default holds no integers that are read in two ways, so what is missing stays as it is. -/
theorem mirrors_get (r : RecordType F Content) (habsent : ∀ f, (r.absent f).map (μ f) = r.absent f)
    (slots : Slots Content) (f : F) : Mirrors (μ f) (r.get slots f) (r.get (slots.map μ) f) := by
  unfold get Slots.map
  cases slots f with
  | some c => exact mirrors_ok c
  | none =>
    -- there is no content, so the default counts on both sides
    have hdefault := habsent f
    rw [Option.map_none]
    cases hc : r.absent f with
    | none => exact mirrors_error _ _
    | some c =>
      rw [hc, Option.map_some, Option.some.injEq] at hdefault
      have hmapped : Mirrors (μ f) (.ok c : Except Fault _) (.ok (μ f c) : Except Fault _) :=
        mirrors_ok c
      rwa [hdefault] at hmapped

section

variable [DecidableEq F] {w : α → α} {read : (f : F) → α → Except Fault (Content f)}
  (h : ∀ f a, Mirrors (μ f) (read f a) (read f (w a)))

include h

/-- Fields are read one by one: the same keys are known, and the same slots are taken. -/
theorem mirrors_readFields (r : RecordType F Content) (strict : Bool) (slots : Slots Content)
    (fields : List (String × α)) :
    Mirrors (Slots.map μ) (r.readFields strict read slots fields)
      (r.readFields strict read (slots.map μ) (fields.map fun p => (p.1, w p.2))) := by
  induction fields generalizing slots with
  | nil => exact mirrors_ok slots
  | cons p rest ih =>
    obtain ⟨key, value⟩ := p
    rw [List.map_cons, readFields, readFields]
    cases r.field? key with
    -- an unknown key is refused or passed over on both sides
    | none =>
      cases strict with
      | true => exact mirrors_error _ _
      | false => exact ih slots
    | some f =>
      -- a slot is taken on one side if it is on the other one
      have hslot : (slots.map μ f).isSome = (slots f).isSome := Option.isSome_map
      dsimp only
      rw [hslot]
      cases (slots f).isSome with
      | true => exact mirrors_error _ _
      | false =>
        refine (h f value).bind fun c => ?_
        rw [← Slots.map_put]
        exact ih _

/-- Items are read one by one, into the fields in their order. -/
theorem mirrors_readItems (r : RecordType F Content) (stop : Option Stop) (place : Nat)
    (slots : Slots Content) (fs : List F) (items : List α) :
    Mirrors (fun p => (p.1.map μ, p.2.map w)) (r.readItems read stop place slots fs items)
      (r.readItems read stop place (slots.map μ) fs (items.map w)) := by
  induction fs generalizing place slots items with
  | nil => cases items <;> exact mirrors_ok (slots, _)
  | cons f fs ih =>
    cases items with
    -- items are missing: the array was cut, or defaults take their place
    | nil =>
      simp only [List.map_nil, readItems]
      cases stop with
      | some s => exact mirrors_error _ _
      | none =>
        cases r.absent f with
        | none => exact mirrors_error _ _
        | some c => exact ih _ _ _
    | cons item items =>
      rw [List.map_cons, readItems, readItems]
      refine (h f item).bind fun c => ?_
      rw [← Slots.map_put]
      exact ih _ _ _

end

/-- A record is read from a reading in the same way if each of its fields is. -/
theorem ofReading_widen [DecidableEq F] (r : RecordType F Content)
    {read : (f : F) → Reading → Except Fault (Content f)}
    (h : ∀ f value, Mirrors (μ f) (read f value) (read f value.widen)) (value : Reading) :
    Mirrors (Slots.map μ) (r.ofReading read value) (r.ofReading read value.widen) := by
  cases value with
  | integer n => exact Reading.mirrors_integer n rfl rfl fun _ => rfl
  | object fields ending =>
    rw [Reading.widen, Reading.widenFields_eq_map, ofReading, ofReading]
    refine (mirrors_readFields h r true Slots.none fields).bind fun slots => ?_
    exact (mirrors_refl _).bind fun _ => mirrors_ok slots
  | array items stop =>
    rw [Reading.widen, Reading.widens_eq_map, ofReading, ofReading]
    refine (mirrors_readItems h r stop 0 Slots.none r.fields items).bind fun p => ?_
    obtain ⟨slots, extra⟩ := p
    -- an item too many is refused, and so is an array that was cut
    cases extra <;> cases stop <;> rfl
  | _ => rfl

/-- So is a record from a value. -/
theorem ofJson_widen [DecidableEq F] (r : RecordType F Content) (strict : Bool)
    {read : (f : F) → Json → Except Fault (Content f)}
    (h : ∀ f value, Mirrors (μ f) (read f value) (read f value.widen)) (value : Json) :
    Mirrors (Slots.map μ) (r.ofJson strict read value) (r.ofJson strict read value.widen) := by
  cases value with
  | integer n => exact mirrors_integer n rfl rfl fun _ => rfl
  | object fields =>
    rw [widen, widenFields_eq_map]
    exact mirrors_readFields h r strict Slots.none fields
  | array items =>
    rw [widen, widens_eq_map, ofJson, ofJson]
    refine (mirrors_readItems h r none 0 Slots.none r.fields items).bind fun p => ?_
    obtain ⟨slots, extra⟩ := p
    cases extra <;> rfl
  | _ => rfl

end RecordType

/-! ### Kinds -/

namespace Kinds

variable {K : Type}

/-- The tag of a reading is a text. -/
theorem tag_widen (k : Kinds K) (r : Reading) : Mirrors id (k.tag r) (k.tag r.widen) := by
  cases r with
  | integer n => exact Reading.mirrors_integer n rfl rfl fun _ => rfl
  | text word => exact mirrors_refl _
  | _ => rfl

/-- A kind can be given by its number; no kind has a number beyond 64 bits. -/
theorem tagOfJson_widen (k : Kinds K) (hk : k.every.length ≤ 0x10000000000000000) (j : Json) :
    Mirrors id (k.tagOfJson j) (k.tagOfJson j.widen) := by
  cases j with
  | integer n =>
    rw [widen]
    obtain hn | ⟨hword, x, hn⟩ := ofInteger_cases n
    · rw [hn]
      exact mirrors_refl _
    · rw [hn]
      cases n with
      | negSucc n => rfl
      | ofNat n =>
        -- an integer this large is the place of no kind
        have hnone : k.every[n]? = none := by
          rw [IsWord, Int.ofNat_eq_natCast] at hword
          exact List.getElem?_eq_none (by omega)
        rw [tagOfJson, hnone]
        rfl
  | text word => exact mirrors_refl _
  | _ => rfl

/-- A tag and the fields around it are told apart by their keys. -/
theorem mirrors_split {w : α → α} {readTag : α → Except Fault K} {keep : α → Except Fault Json}
    (htag : ∀ a, Mirrors id (readTag a) (readTag (w a)))
    (hkeep : ∀ a, Mirrors widen (keep a) (keep (w a))) (known : Option K)
    (fields : List (String × α)) :
    Mirrors (fun p => (p.1, widenFields p.2)) (split readTag keep known fields)
      (split readTag keep known (fields.map fun p => (p.1, w p.2))) := by
  induction fields generalizing known with
  | nil => rfl
  | cons p rest ih =>
    obtain ⟨key, value⟩ := p
    rw [List.map_cons]
    unfold split
    dsimp only
    split
    -- the key of the tag, for the first time or again
    · cases known with
      | some kind => exact mirrors_error _ _
      | none => exact (htag value).bind fun kind => ih (some kind)
    · exact (hkeep value).bind fun content => (ih known).bind fun p =>
        mirrors_ok (p.1, (key, content) :: p.2)

/-- A reading that is told by its kind is split in the same way, and the rest is widened. -/
theorem ofReading_widen (k : Kinds K) (r : Reading) :
    Mirrors (fun p => (p.1, p.2.widen)) (k.ofReading r) (k.ofReading r.widen) := by
  -- what stands beside the tag is kept whole
  have hcomplete (r : Reading) : Mirrors widen r.complete r.widen.complete :=
    r.whole_widen.mapError _ _
  cases r with
  | integer n => exact Reading.mirrors_integer n rfl rfl fun _ => rfl
  | object fields ending =>
    rw [Reading.widen, Reading.widenFields_eq_map, ofReading, ofReading]
    refine (mirrors_split k.tag_widen hcomplete none fields).bind fun p => ?_
    exact (mirrors_refl _).bind fun _ => (mirrors_refl (tagged p.1)).bind fun kind =>
      mirrors_ok (kind, Json.object p.2)
  | array items stop =>
    cases items with
    | nil => cases stop <;> rfl
    | cons first rest =>
      rw [Reading.widen, Reading.widens, ofReading, ofReading]
      exact (k.tag_widen first).bind fun kind =>
        (hcomplete (.array rest stop)).bind fun j => mirrors_ok (kind, j)
  | _ => rfl

/-- So is a value that is told by its kind, if there are fewer kinds than words of 64 bits. -/
theorem ofJson_widen (k : Kinds K) (hk : k.every.length ≤ 0x10000000000000000) (j : Json) :
    Mirrors (fun p => (p.1, p.2.widen)) (k.ofJson j) (k.ofJson j.widen) := by
  cases j with
  | integer n => exact mirrors_integer n rfl rfl fun _ => rfl
  | object fields =>
    rw [widen, widenFields_eq_map, ofJson, ofJson]
    have hsplit := mirrors_split (k.tagOfJson_widen hk) (fun j => mirrors_ok j) none fields
    refine hsplit.bind fun p => ?_
    exact (mirrors_refl (tagged p.1)).bind fun kind => mirrors_ok (kind, Json.object p.2)
  | array items =>
    cases items with
    | nil => rfl
    | cons first rest =>
      rw [widen, widens, ofJson, ofJson]
      exact (k.tagOfJson_widen hk first).bind fun kind => mirrors_ok (kind, Json.array rest)
  | _ => rfl

end Kinds

end RowPolicy.Json
