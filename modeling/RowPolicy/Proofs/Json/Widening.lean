import RowPolicy.Json.Document
import RowPolicy.Proofs.Json.Integers

namespace RowPolicy

/-!
# JSON with its integers kept

A text can be read with all its integers kept, however large they are.  What is read of it
otherwise is the same, except that integers beyond 64 bits have become floats.

* `Mirrors` — computations that succeed together;
* `Json.Reading.widen`, `Json.widen` — integers beyond 64 bits as floats;
* `Json.Numeral.exactValue?` — numerals, with their integers kept;
* `Json.Reading.ofChars_widen`, `Json.Document.ofText_widen` — texts, read in both ways;
* `Json.Reading.whole_widen` — the values of readings.
-/

/-! ### Computations side by side -/

section Mirrors

variable {α α' β β' γ δ ε ε' : Type}

/-- The second computation succeeds if the first one does, with what `μ` makes of its
    result.  Of faults nothing is said. -/
def Mirrors (μ : α → β) (x : Except ε α) (y : Except ε' β) : Prop :=
  y.toOption = x.toOption.map μ

/-- A success is mirrored by the success with the changed result. -/
theorem mirrors_ok {μ : α → β} (a : α) : Mirrors μ (.ok a : Except ε α) (.ok (μ a) : Except ε' β) :=
  rfl

/-- Any failure mirrors any other one. -/
theorem mirrors_error {μ : α → β} (e : ε) (e' : ε') : Mirrors μ (.error e) (.error e') := rfl

/-- A computation mirrors itself. -/
theorem mirrors_refl (x : Except ε α) : Mirrors id x x := by rw [Mirrors, Option.map_id_apply]

namespace Mirrors

/-- What the second computation gives comes from a result of the first one. -/
theorem eq_ok_iff {μ : α → β} {x : Except ε α} {y : Except ε' β} (h : Mirrors μ x y) {b : β} :
    y = .ok b ↔ ∃ a, x = .ok a ∧ b = μ a := by
  cases x <;> cases y <;> simp_all [Mirrors, Except.toOption, eq_comm]

/-- Mirrored steps behind mirrored computations are mirrored. -/
theorem bind {μ : α → β} {ν : γ → δ} {x : Except ε α} {y : Except ε' β} (h : Mirrors μ x y)
    {f : α → Except ε γ} {g : β → Except ε' δ} (hfg : ∀ a, Mirrors ν (f a) (g (μ a))) :
    Mirrors ν (x >>= f) (y >>= g) := by
  cases x with
  | error e =>
    cases y with
    | error e' => rfl
    | ok b => cases h
  | ok a =>
    obtain rfl := h.eq_ok_iff.mpr ⟨a, rfl, rfl⟩
    exact hfg a

/-- Renaming failures changes nothing. -/
theorem mapError {μ : α → β} {x : Except ε α} {y : Except ε' β} (h : Mirrors μ x y)
    (f : ε → γ) (g : ε' → δ) : Mirrors μ (x.mapError f) (y.mapError g) := by
  cases x <;> cases y <;> exact h

/-- Results may be changed on both sides. -/
theorem map {μ : α → β} {x : Except ε α} {y : Except ε' β} (h : Mirrors μ x y) {ν : γ → δ}
    {f : α → γ} {g : β → δ} (hfg : ∀ a, g (μ a) = ν (f a)) : Mirrors ν (x.map f) (y.map g) := by
  cases x with
  | error e =>
    cases y with
    | error e' => rfl
    | ok b => cases h
  | ok a =>
    obtain rfl := h.eq_ok_iff.mpr ⟨a, rfl, rfl⟩
    exact congrArg some (hfg a)

/-- Lists are mirrored element by element. -/
theorem mapM {μ : α → β} {w : α' → β'} {f : α' → Except ε α} {g : β' → Except ε' β}
    (h : ∀ a, Mirrors μ (f a) (g (w a))) (xs : List α') :
    Mirrors (List.map μ) (xs.mapM f) ((xs.map w).mapM g) := by
  induction xs with
  | nil => rfl
  | cons x xs ih =>
    rw [List.map_cons, List.mapM_cons, List.mapM_cons]
    exact (h x).bind fun a => ih.bind fun as => mirrors_ok (a :: as)

end Mirrors

end Mirrors

namespace Json

/-! ### Widening -/

namespace Reading

mutual

/-- A reading with its integers beyond 64 bits as floats. -/
def widen : Reading → Reading
  | integer n => ofInteger n
  | array items stop => array (widens items) stop
  | object fields ending => object (widenFields fields) ending
  | r => r

/-- Elements with their integers beyond 64 bits as floats. -/
def widens : List Reading → List Reading
  | [] => []
  | r :: rs => r.widen :: widens rs

/-- Fields with their integers beyond 64 bits as floats. -/
def widenFields : List (String × Reading) → List (String × Reading)
  | [] => []
  | p :: ps => widenField p :: widenFields ps

/-- A field with its integers beyond 64 bits as floats. -/
def widenField : String × Reading → String × Reading
  | (key, r) => (key, r.widen)

end

/-- Readings are widened one by one. -/
theorem widens_eq_map (rs : List Reading) : widens rs = rs.map widen := by
  induction rs with
  | nil => rfl
  | cons r rs ih => rw [widens, ih, List.map_cons]

/-- Fields are widened one by one, and keep their keys. -/
theorem widenFields_eq_map (ps : List (String × Reading)) :
    widenFields ps = ps.map fun p => (p.1, p.2.widen) := by
  induction ps with
  | nil => rfl
  | cons p ps ih =>
    obtain ⟨key, value⟩ := p
    rw [widenFields, widenField, ih, List.map_cons]

/-- An integer is read as itself or as a float. -/
theorem ofInteger_cases (n : Int) : ofInteger n = .integer n ∨ ∃ x, ofInteger n = .decimal x := by
  unfold ofInteger
  split
  · exact .inl rfl
  · exact .inr ⟨_, rfl⟩

end Reading

/-- What an integer is read as. -/
def ofInteger (n : Int) : Json :=
  if IsWord n then .integer n else .decimal (Numeral.nearest n)

/-- An integer is kept as itself, or it fits no 64 bits and becomes a float. -/
theorem ofInteger_cases (n : Int) :
    ofInteger n = .integer n ∨ ¬ IsWord n ∧ ∃ x, ofInteger n = .decimal x := by
  unfold ofInteger
  split
  · exact .inl rfl
  · rename_i hword
    exact .inr ⟨hword, _, rfl⟩

mutual

/-- A value with its integers beyond 64 bits as floats. -/
def widen : Json → Json
  | integer n => ofInteger n
  | array items => array (widens items)
  | object fields => object (widenFields fields)
  | j => j

/-- Elements with their integers beyond 64 bits as floats. -/
def widens : List Json → List Json
  | [] => []
  | j :: js => j.widen :: widens js

/-- Fields with their integers beyond 64 bits as floats. -/
def widenFields : List (String × Json) → List (String × Json)
  | [] => []
  | p :: ps => widenField p :: widenFields ps

/-- A field with its integers beyond 64 bits as floats. -/
def widenField : String × Json → String × Json
  | (key, j) => (key, j.widen)

end

/-- Values are widened one by one. -/
theorem widens_eq_map (js : List Json) : widens js = js.map widen := by
  induction js with
  | nil => rfl
  | cons j js ih => rw [widens, ih, List.map_cons]

/-- Fields of values are widened one by one, and keep their keys. -/
theorem widenFields_eq_map (ps : List (String × Json)) :
    widenFields ps = ps.map fun p => (p.1, p.2.widen) := by
  induction ps with
  | nil => rfl
  | cons p ps ih =>
    obtain ⟨key, value⟩ := p
    rw [widenFields, widenField, ih, List.map_cons]

/-- Texts, and nothing else, are texts when they are widened. -/
theorem widen_eq_text {j : Json} {s : String} : j.widen = .text s ↔ j = .text s := by
  cases j with
  | integer n =>
    rw [widen]
    obtain hn | ⟨-, x, hn⟩ := ofInteger_cases n <;> simp [hn]
  | _ => simp [widen]

mutual

/-- Widening does not change how deep a value is nested. -/
theorem height_widen : (j : Json) → j.widen.height = j.height
  | .null | .bool _ | .decimal _ | .text _ => rfl
  | .integer n => by
    rw [widen]
    obtain hn | ⟨-, x, hn⟩ := ofInteger_cases n
    · rw [hn]
    · rw [hn]
      rfl
  | .array items => by rw [widen, height, height, heights_widen items]
  | .object fields => by rw [widen, height, height, fieldHeights_widen fields]

/-- Widened values are as deep as they were. -/
theorem heights_widen : (js : List Json) → heights (widens js) = heights js
  | [] => rfl
  | j :: js => by rw [widens, heights, heights, height_widen j, heights_widen js]

/-- So are widened fields. -/
theorem fieldHeights_widen : (ps : List (String × Json)) →
    fieldHeights (widenFields ps) = fieldHeights ps
  | [] => rfl
  | p :: ps => by
    rw [widenFields, fieldHeights, fieldHeights, fieldHeight_widen p, fieldHeights_widen ps]

/-- So is a widened field. -/
theorem fieldHeight_widen : (p : String × Json) → fieldHeight (widenField p) = fieldHeight p
  | (_, j) => by rw [widenField, fieldHeight, fieldHeight, height_widen j]

end

/-! ### Reading texts -/

/-- The value of a numeral, with integers kept. -/
def Numeral.exactValue? (numeral : Numeral) : Option Reading :=
  numeral.value?.map fun r => if numeral.IsLiteral then .integer numeral.int else r

/-- A numeral has a value in both ways of reading, or in none. -/
theorem Numeral.Canonical.value_eq {numeral : Numeral} (h : numeral.Canonical) :
    numeral.value? = numeral.exactValue?.map Reading.widen := by
  unfold exactValue?
  cases hvalue : numeral.value? with
  | none => rfl
  | some r =>
    obtain ⟨hliteral, rfl⟩ | ⟨hliteral, x, rfl⟩ := value_eq_some h hvalue
    · simp [hliteral, Reading.widen]
    · simp [hliteral, Reading.widen]

/-- A value, with its integers beyond 64 bits as floats, and the text behind it. -/
def Outcome.widen (o : Outcome) : Outcome := (o.1.widen, o.2)

namespace Reading

/-- A number is read to its end before it is widened. -/
theorem number_widen (s : List Char) :
    number Numeral.value? s = (number Numeral.exactValue? s).widen := by
  unfold number
  cases hscan : Numeral.scan s with
  | error stop => rfl
  | ok p =>
    obtain ⟨numeral, rest⟩ := p
    dsimp only
    rw [(Numeral.scan_canonical hscan).value_eq]
    cases numeral.exactValue? <;> rfl

/-- A text holds no integers. -/
theorem quoted_widen (s : List Char) : quoted s = (quoted s).widen := by
  unfold quoted
  split <;> rfl

/-- Neither does one of the words of JSON. -/
theorem word_widen (begun : Beginning) (letters : String) {value : Reading}
    (hvalue : value.widen = value) (s : List Char) :
    word begun letters value s = (word begun letters value s).widen := by
  unfold word
  split
  · rw [Outcome.widen, hvalue]
  · rfl

section

-- two readers of elements, of which the second one keeps integers
variable {element keeping : Reader} (h : ∀ s, element s = (keeping s).widen)

include h

/-- Elements of an array are widened where they stand, and the rest of the text is the same. -/
theorem elements_widen (fuel : Nat) (s : List Char) :
    elements element fuel s =
      (widens (elements keeping fuel s).1, (elements keeping fuel s).2) := by
  induction fuel generalizing s with
  | zero => rfl
  | succ fuel ih =>
    rw [elements, elements, h, Outcome.widen]
    -- the element ends where it ended before, so the same characters follow
    obtain ⟨value, behind⟩ := keeping s
    cases behind with
    | none => rfl
    | some rest =>
      dsimp only
      cases skipSpace rest with
      | nil => rfl
      | cons c rest =>
        dsimp only
        rw [ih]
        split_ifs <;> rfl

/-- What stands between the brackets of an array is widened element by element. -/
theorem arrayBody_widen (s : List Char) : arrayBody element s = (arrayBody keeping s).widen := by
  unfold arrayBody
  cases skipSpace s with
  | nil => rfl
  | cons c rest =>
    dsimp only
    rw [elements_widen h]
    split_ifs <;> rfl

/-- The value behind a key is widened, and its colon is none of its concern. -/
theorem fieldValue_widen (s : List Char) : fieldValue element s = (fieldValue keeping s).widen := by
  unfold fieldValue
  cases skipSpace s with
  | nil => rfl
  | cons c rest =>
    dsimp only
    rw [h]
    split_ifs <;> rfl

/-- Members of an object are widened where they stand, and the rest of the text is the same. -/
theorem members_widen (fuel : Nat) (s : List Char) :
    members element fuel s =
      (widenFields (members keeping fuel s).1, (members keeping fuel s).2) := by
  induction fuel generalizing s with
  | zero => rfl
  | succ fuel ih =>
    rw [members, members]
    -- a key has to be read first; if it is refused, both sides stop at it
    split
    · cases Text.read .plain _ with
      | error stop => rfl
      | ok p =>
        obtain ⟨key, s⟩ := p
        dsimp only
        rw [fieldValue_widen h, Outcome.widen]
        obtain ⟨value, behind⟩ := fieldValue keeping s
        cases behind with
        | none => rfl
        | some rest =>
          dsimp only
          cases skipSpace rest with
          | nil => rfl
          | cons c rest =>
            dsimp only
            rw [ih]
            split_ifs <;> rfl
    · rfl
    · rfl

/-- What stands between the braces of an object is widened member by member. -/
theorem objectBody_widen (s : List Char) : objectBody element s = (objectBody keeping s).widen := by
  unfold objectBody
  split
  · rfl
  · rw [members_widen h]
    rfl

end

/-- One value of a text, provided that the two readers agree on what is nested in it. -/
theorem ofChars_widen_of_nested {depth : Nat}
    (h : ∀ d, depth = d + 1 →
      ∀ s, ofChars Numeral.value? d s = (ofChars Numeral.exactValue? d s).widen)
    (s : List Char) :
    ofChars Numeral.value? depth s = (ofChars Numeral.exactValue? depth s).widen := by
  unfold ofChars
  -- the first character tells the form, and no form depends on the integers in it
  cases skipSpace s with
  | nil => rfl
  | cons c rest =>
    dsimp only
    split_ifs
    · exact quoted_widen rest
    · exact word_widen _ _ rfl rest
    · exact word_widen _ _ rfl rest
    · exact word_widen _ _ rfl rest
    · exact number_widen _
    -- arrays and objects go one level deeper, as far as the depth allows
    · cases depth with
      | zero => rfl
      | succ depth => exact arrayBody_widen (h depth rfl) rest
    · cases depth with
      | zero => rfl
      | succ depth => exact objectBody_widen (h depth rfl) rest
    · rfl

/-- **One text, read in two ways.** -/
theorem ofChars_widen (depth : Nat) (s : List Char) :
    ofChars Numeral.value? depth s = (ofChars Numeral.exactValue? depth s).widen := by
  induction depth generalizing s with
  | zero => exact ofChars_widen_of_nested (fun d h => absurd h.symm (Nat.succ_ne_zero d)) s
  | succ depth ih =>
    refine ofChars_widen_of_nested (fun d h => ?_) s
    obtain rfl := Nat.succ.inj h
    exact ih

end Reading

/-- A document with its integers beyond 64 bits as floats. -/
def Document.widen (document : Document) : Document :=
  { document with root := document.root.widen }

/-- A document is decoded in the same way if its reading is. -/
theorem Document.decode_widen {α β : Type} {μ : α → β} {read : Reading → Except Fault α}
    {read' : Reading → Except Fault β} (h : ∀ r, Mirrors μ (read r) (read' r.widen))
    (document : Document) : Mirrors μ (document.decode read) (document.widen.decode read') := by
  obtain ⟨root, trailing⟩ := document
  refine (h root).bind fun a => ?_
  cases trailing <;> rfl

/-- A text is read once, and then its integers are widened. -/
theorem Document.ofText_widen (text : String) :
    ofText text = (ofTextWith Numeral.exactValue? text).widen := by
  rw [ofText, ofTextWith, ofTextWith, Reading.ofChars_widen, Outcome.widen]
  obtain ⟨root, behind⟩ := Reading.ofChars Numeral.exactValue? Reading.maxDepth text.toList
  cases behind <;> rfl

namespace Reading

/-! ### Values of readings -/

mutual

/-- A reading is whole or not, whatever its integers are read as. -/
theorem whole_widen : (r : Reading) → Mirrors Json.widen r.whole r.widen.whole
  | null | bool _ | decimal _ | text _ => mirrors_ok _
  | cut _ _ => mirrors_error _ _
  | integer n => by
    rw [widen, ofInteger]
    split
    -- an integer within 64 bits is kept
    · rename_i hword
      have hkept : Json.widen (.integer n) = .integer n := by
        rw [Json.widen, Json.ofInteger, if_pos hword]
      rw [Mirrors, whole, Except.toOption, Option.map_some, hkept]
    -- any other one has become a float in the value too
    · rename_i hword
      have hfloat : Json.widen (.integer n) = .decimal (Numeral.nearest n) := by
        rw [Json.widen, Json.ofInteger, if_neg hword]
      rw [Mirrors, whole, whole, Except.toOption, Except.toOption, Option.map_some, hfloat]
  | array items stop => by
    rw [widen, whole, whole]
    refine (wholes_widen items).bind fun js => ?_
    -- an array that was cut is no value
    cases stop with
    | none => exact mirrors_ok (Json.array js)
    | some stop => exact mirrors_error _ _
  | object fields ending => by
    rw [widen, whole, whole]
    refine (wholeFields_widen fields).bind fun js => ?_
    exact (mirrors_refl ending.check).bind fun _ => mirrors_ok (Json.object js)

/-- So are readings in a row. -/
theorem wholes_widen : (rs : List Reading) → Mirrors Json.widens (wholes rs) (wholes (widens rs))
  | [] => mirrors_ok _
  | r :: rs => by
    rw [widens, wholes, wholes]
    exact (whole_widen r).bind fun j => (wholes_widen rs).bind fun js => mirrors_ok (j :: js)

/-- So are fields. -/
theorem wholeFields_widen : (ps : List (String × Reading)) →
    Mirrors Json.widenFields (wholeFields ps) (wholeFields (widenFields ps))
  | [] => mirrors_ok _
  | p :: ps => by
    rw [widenFields, wholeFields, wholeFields]
    exact (wholeField_widen p).bind fun j =>
      (wholeFields_widen ps).bind fun js => mirrors_ok (j :: js)

/-- So is a single field. -/
theorem wholeField_widen : (p : String × Reading) →
    Mirrors Json.widenField (wholeField p) (wholeField (widenField p))
  | (key, r) => by
    rw [widenField, wholeField, wholeField]
    exact (whole_widen r).bind fun j => mirrors_ok (key, j)

end

end Reading

end Json

end RowPolicy
