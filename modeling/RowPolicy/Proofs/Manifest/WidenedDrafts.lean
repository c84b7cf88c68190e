import RowPolicy.Manifest.Predicate
import RowPolicy.Proofs.Json.Decoding
import RowPolicy.Proofs.Manifest.Integers

namespace RowPolicy

/-!
# Predicates with wide integers

A reader may keep the integers beyond 64 bits, or read them as floats.  The drafts that it reads
differ in these integers alone:

* `OperandDraft.ofInteger` — what an integer is read as;
* `OperandDraft.ofJson_widen` — operands, read in both ways;
* `ReadsAlike` — what is asked of the reader of the predicates within;
* `JoinDraft.ofJson_widen`, `SubqueryDraft.ofJson_widen`, `PredicateDraft.ofRecord_widen` — what
  has predicates in it;
* `PredicateDraft.ofReading_widen` — predicates, nested to any depth.
-/

open Json (IsWord Numeral)

/-! ### Operands -/

namespace OperandDraft

/-- What an integer is read as. -/
def ofInteger (n : Int) : OperandDraft :=
  if IsWord n then .integer n else .float (Numeral.nearest n)

/-- In a list each operand has its integers replaced. -/
theorem mapIntegersOf_eq_map (f : Int → OperandDraft) :
    mapIntegersOf f = List.map (mapIntegers f) := by
  funext vs
  induction vs with
  | nil => rfl
  | cons v vs ih => rw [mapIntegersOf, ih, List.map_cons]

/-! Objects hold no integers, whatever is in them. -/

/-- The content of a key is widened with the fields. -/
theorem sole_widen (fields : List (String × Json)) (key : String) :
    sole? (Json.widenFields fields) key = (sole? fields key).map Json.widen := by
  rw [Json.widenFields_eq_map]
  simp only [sole?, List.filter_map, Function.comp_def]
  generalize fields.filter (fun p => p.1 == key) = found
  match found with
  | [] => rfl
  | [(_, content)] => rfl
  | _ :: _ :: _ => rfl

/-- A text under a key stays, as widening makes none and takes none away. -/
theorem soleText_widen (fields : List (String × Json)) (key : String) :
    soleText? (Json.widenFields fields) key = soleText? fields key := by
  unfold soleText?
  rw [sole_widen]
  cases sole? fields key with
  | none => rfl
  | some content =>
    cases content with
    -- an integer becomes another number, and neither is a text
    | integer n =>
      rw [Option.map_some, Json.widen]
      obtain hn | ⟨-, x, hn⟩ := Json.ofInteger_cases n <;> rw [hn]
    | _ => rfl

/-- The type of a setting is a word, which stays. -/
theorem cast_widen (fields : List (String × Json)) :
    cast? (Json.widenFields fields) = cast? fields := by
  have hany : (Json.widenFields fields).any (fun p => p.1 == "type") =
      fields.any fun p => p.1 == "type" := by
    rw [Json.widenFields_eq_map, List.any_map]
    rfl
  unfold cast?
  rw [hany, sole_widen]
  cases sole? fields "type" with
  | none => rfl
  | some content => simp only [Option.map_some, Option.bind_some, Cast.words.strict_widen]

/-- A context without a type is a word, which stays. -/
theorem plainContext_widen (fields : List (String × Json)) :
    plainContext? (Json.widenFields fields) = plainContext? fields := by
  unfold plainContext?
  rw [sole_widen]
  cases sole? fields "context" with
  | none => rfl
  | some content =>
    simp only [Option.map_some, Option.bind_eq_bind, Option.bind_some,
      PlainContext.words.strict_widen]

/-- An operand read from an object has no integers, so it stays. -/
theorem ofFields_widen (fields : List (String × Json)) :
    ofFields? (Json.widenFields fields) = ofFields? fields := by
  simp only [ofFields?, timestamp?, setting?, raw?, soleText_widen, cast_widen,
    plainContext_widen]

/-- The operand of an object stays as it is. -/
theorem mapIntegers_ofFields (f : Int → OperandDraft) (fields : List (String × Json)) :
    (ofFields? fields).map (mapIntegers f) = ofFields? fields := by
  -- none of the four forms yields an integer, and so neither does the first that fits
  have horElse {x y : Option OperandDraft} (hx : x.map (mapIntegers f) = x)
      (hy : y.map (mapIntegers f) = y) : (x <|> y).map (mapIntegers f) = (x <|> y) := by
    cases x with
    | none => exact hy
    | some v => exact hx
  have htimestamp : (timestamp? fields).map (mapIntegers f) = timestamp? fields := by
    unfold timestamp?
    cases soleText? fields "timestamp" with
    | none => rfl
    | some text =>
      simp only [Option.bind_eq_bind, Option.bind_some]
      cases (Instant.read text).toOption <;> rfl
  have hcontext : (plainContext? fields).map (mapIntegers f) = plainContext? fields := by
    unfold plainContext?
    cases sole? fields "context" with
    | none => rfl
    | some content =>
      simp only [Option.bind_eq_bind, Option.bind_some]
      cases PlainContext.words.strict? content <;> rfl
  have hsetting : (setting? fields).map (mapIntegers f) = setting? fields := by
    unfold setting?
    cases soleText? fields "session" with
    | none => rfl
    | some key =>
      simp only [Option.bind_eq_bind, Option.bind_some]
      cases cast? fields <;> rfl
  have hraw : (raw? fields).map (mapIntegers f) = raw? fields := by
    unfold raw?
    cases soleText? fields "raw" <;> rfl
  exact horElse htimestamp (horElse hcontext (horElse hsetting hraw))

mutual

/-- An operand is read with its integers as widening leaves them. -/
theorem ofJson?_widen : (j : Json) → ofJson? j.widen = (ofJson? j).map (mapIntegers ofInteger)
  | .null | .bool _ | .decimal _ | .text _ => rfl
  | .integer n => by
    rw [Json.widen, Json.ofInteger, ofJson?, Option.map_some, mapIntegers, ofInteger]
    split <;> rfl
  | .array items => by
    rw [Json.widen, ofJson?, ofJson?, ofItems?_widen items, Option.map_map, Option.map_map]
    rfl
  | .object fields => by
    rw [Json.widen, ofJson?, ofJson?, ofFields_widen, mapIntegers_ofFields]

theorem ofItems?_widen : (js : List Json) →
    ofItems? (Json.widens js) = (ofItems? js).map (mapIntegersOf ofInteger)
  | [] => rfl
  | j :: js => by
    rw [Json.widens, ofItems?, ofItems?, ofJson?_widen j, ofItems?_widen js]
    cases ofJson? j with
    | none => rfl
    | some v => cases ofItems? js <;> rfl

end

/-- Reading an operand commutes with widening. -/
theorem ofJson_widen (j : Json) :
    Mirrors (mapIntegers ofInteger) (ofJson j) (ofJson j.widen) := by
  unfold ofJson
  rw [ofJson?_widen j]
  cases ofJson? j <;> rfl

end OperandDraft

/-! ### Predicates and subqueries -/

/-- A predicate that may be missing has its integers replaced if it is there. -/
theorem PredicateDraft.mapIntegersOpt_eq_map (f : Int → OperandDraft) :
    PredicateDraft.mapIntegers? f = Option.map (PredicateDraft.mapIntegers f) := by
  funext p
  cases p <;> rfl

/-- In a list each predicate has its integers replaced. -/
theorem PredicateDraft.mapIntegersOf_eq_map (f : Int → OperandDraft) :
    PredicateDraft.mapIntegersOf f = List.map (PredicateDraft.mapIntegers f) := by
  funext ps
  induction ps with
  | nil => rfl
  | cons p ps ih => rw [PredicateDraft.mapIntegersOf, ih, List.map_cons]

/-- In a list each argument has its integers replaced. -/
theorem ArgumentDraft.mapIntegersOf_eq_map (f : Int → OperandDraft) :
    ArgumentDraft.mapIntegersOf f = List.map (ArgumentDraft.mapIntegers f) := by
  funext as
  induction as with
  | nil => rfl
  | cons a as ih => rw [ArgumentDraft.mapIntegersOf, ih, List.map_cons]

/-- A join that may be missing has its integers replaced if it is there. -/
theorem JoinDraft.mapIntegersOpt_eq_map (f : Int → OperandDraft) :
    JoinDraft.mapIntegers? f = Option.map (JoinDraft.mapIntegers f) := by
  funext join
  cases join <;> rfl

/-- A subquery that may be missing has its integers replaced if it is there. -/
theorem SubqueryDraft.mapIntegersOpt_eq_map (f : Int → OperandDraft) :
    SubqueryDraft.mapIntegers? f = Option.map (SubqueryDraft.mapIntegers f) := by
  funext q
  cases q <;> rfl

/-- A reader of predicates reads the same from a value and from the widened one, except for the
    integers. -/
def ReadsAlike (predicate : PredicateReader) : Prop :=
  ∀ j, Mirrors (PredicateDraft.mapIntegers OperandDraft.ofInteger) (predicate j)
    (predicate j.widen)

section

variable {predicate : PredicateReader}

namespace JoinDraft

/-- The content of a field, with its integers as they are read. -/
def widenContent : (f : Field) → Content f → Content f
  | .on, p => p.mapIntegers OperandDraft.ofInteger
  | .kind, c => c
  | .table, c => c
  | .aliasName, c => c

/-- The fields of a join are read alike, its condition with its integers replaced. -/
theorem content_widen (hp : ReadsAlike predicate) (f : Field) (j : Json) :
    Mirrors (widenContent f) (content predicate f j) (content predicate f j.widen) := by
  cases f with
  | kind => exact JoinKind.words.ofJson_widen j
  | table => exact j.asText_widen
  | aliasName => exact Json.asOption_widen_id Json.asText_widen j
  | on => exact hp j

/-- Reading a join commutes with widening. -/
theorem ofJson_widen (hp : ReadsAlike predicate) (j : Json) : Mirrors (mapIntegers OperandDraft.ofInteger)
    (ofJson predicate j) (ofJson predicate j.widen) := by
  have habsent (f : Field) : (record.absent f).map (widenContent f) = record.absent f := by
    cases f <;> rfl
  have hget := record.mirrors_get habsent
  exact (record.ofJson_widen true (content_widen hp) j).bind fun slots =>
    (hget slots .kind).bind fun kind => (hget slots .table).bind fun table =>
      (hget slots .aliasName).bind fun aliasName => (hget slots .on).bind fun on =>
        mirrors_ok (JoinDraft.mk kind table aliasName on)

end JoinDraft

namespace SubqueryDraft

/-- The content of a field, with its integers as they are read. -/
def widenContent : (f : Field) → Content f → Content f
  | .join, c => JoinDraft.mapIntegers? OperandDraft.ofInteger c
  | .filter, c => PredicateDraft.mapIntegers? OperandDraft.ofInteger c
  | .table, c => c
  | .aliasName, c => c
  | .columns, c => c

/-- The fields of a subquery are read alike, its clauses with their integers replaced. -/
theorem content_widen (hp : ReadsAlike predicate) (f : Field) (j : Json) :
    Mirrors (widenContent f) (content predicate f j) (content predicate f j.widen) := by
  cases f with
  | table => exact j.asText_widen
  | aliasName => exact Json.asOption_widen_id Json.asText_widen j
  | columns => exact Json.asList_widen_id Json.asText_widen j
  | join =>
    show Mirrors (JoinDraft.mapIntegers? _) _ _
    rw [JoinDraft.mapIntegersOpt_eq_map]
    exact Json.asOption_widen (JoinDraft.ofJson_widen hp) j
  | filter =>
    show Mirrors (PredicateDraft.mapIntegers? _) _ _
    rw [PredicateDraft.mapIntegersOpt_eq_map]
    exact Json.asOption_widen hp j

/-- Reading a subquery commutes with widening. -/
theorem ofJson_widen (hp : ReadsAlike predicate) (j : Json) : Mirrors (mapIntegers OperandDraft.ofInteger)
    (ofJson predicate j) (ofJson predicate j.widen) := by
  have habsent (f : Field) : (record.absent f).map (widenContent f) = record.absent f := by
    cases f <;> rfl
  have hget := record.mirrors_get habsent
  exact (record.ofJson_widen true (content_widen hp) j).bind fun slots =>
    (hget slots .table).bind fun table => (hget slots .aliasName).bind fun aliasName =>
      (hget slots .columns).bind fun columns => (hget slots .join).bind fun join =>
        (hget slots .filter).bind fun filter =>
          mirrors_ok (SubqueryDraft.mk table aliasName columns join filter)

end SubqueryDraft

/-- An argument is a predicate, unless it is a text. -/
theorem ArgumentDraft.toOption_ofJson {j : Json} (h : ∀ s, j ≠ .text s) :
    (ArgumentDraft.ofJson predicate j).toOption = (predicate j).toOption.map .predicate := by
  rw [ArgumentDraft.ofJson]
  · cases predicate j <;> rfl
  · exact h

/-- Reading an argument commutes with widening, as a text stays a text. -/
theorem ArgumentDraft.ofJson_widen (hp : ReadsAlike predicate) (j : Json) :
    Mirrors (ArgumentDraft.mapIntegers OperandDraft.ofInteger)
      (ArgumentDraft.ofJson predicate j) (ArgumentDraft.ofJson predicate j.widen) := by
  -- a text is a column, before and after; anything else is read as a predicate
  by_cases htext : ∃ s, j = .text s
  · obtain ⟨s, rfl⟩ := htext
    rfl
  · rw [not_exists] at htext
    have hwiden (s : String) : j.widen ≠ .text s := fun h => htext s (Json.widen_eq_text.mp h)
    have hj : (predicate j.widen).toOption =
        (predicate j).toOption.map (PredicateDraft.mapIntegers OperandDraft.ofInteger) := hp j
    rw [Mirrors, ArgumentDraft.toOption_ofJson hwiden, ArgumentDraft.toOption_ofJson htext, hj,
      Option.map_map, Option.map_map]
    rfl

namespace PredicateDraft

/-- The content of a field, with its integers as they are read. -/
def widenContent : (f : Field) → Content f → Content f
  | .operand, c => c.mapIntegers OperandDraft.ofInteger
  | .values, c => c.map (OperandDraft.mapIntegersOf OperandDraft.ofInteger)
  | .subquery, c => SubqueryDraft.mapIntegers? OperandDraft.ofInteger c
  | .args, c => ArgumentDraft.mapIntegersOf OperandDraft.ofInteger c
  | .members, c => mapIntegersOf OperandDraft.ofInteger c
  | .select, c => c
  | .date, c => c
  | .column, c => c
  | .pattern, c => c
  | .setting, c => c
  | .joinTable, c => c
  | .foreignKey, c => c
  | .localKey, c => c
  | .table, c => c
  | .role, c => c
  | .function, c => c

/-- The fields of a predicate are read alike, those with operands or predicates with their integers
    replaced. -/
theorem content_widen (hp : ReadsAlike predicate) (f : Field) (j : Json) :
    Mirrors (widenContent f) (content predicate f j) (content predicate f j.widen) := by
  cases f with
  | operand => exact OperandDraft.ofJson_widen j
  | values =>
    show Mirrors (Option.map (OperandDraft.mapIntegersOf _)) _ _
    rw [OperandDraft.mapIntegersOf_eq_map]
    exact Json.asOption_widen (Json.asList_widen OperandDraft.ofJson_widen) j
  | subquery =>
    show Mirrors (SubqueryDraft.mapIntegers? _) _ _
    rw [SubqueryDraft.mapIntegersOpt_eq_map]
    exact Json.asOption_widen (SubqueryDraft.ofJson_widen hp) j
  | args =>
    show Mirrors (ArgumentDraft.mapIntegersOf _) _ _
    rw [ArgumentDraft.mapIntegersOf_eq_map]
    exact Json.asList_widen (ArgumentDraft.ofJson_widen hp) j
  | members =>
    show Mirrors (mapIntegersOf _) _ _
    rw [mapIntegersOf_eq_map]
    exact Json.asList_widen hp j
  | select => exact Json.asOption_widen_id Json.asText_widen j
  | date => exact Json.asOption_widen_id Json.asInstant_widen j
  | _ => exact j.asText_widen

/-- A predicate is made of its fields alike, whichever of its kind's fields have integers. -/
theorem build_widen (kind : Kind) {get get' : (f : Field) → Except Json.Fault (Content f)}
    (h : ∀ f, Mirrors (widenContent f) (get f) (get' f)) :
    Mirrors (mapIntegers OperandDraft.ofInteger) (kind.build get) (kind.build get') := by
  -- field by field in the order of the kind, which is also the order of the faults
  cases kind with
  | compare op =>
    exact (h .column).bind fun column => (h .operand).bind fun operand =>
      mirrors_ok (compare column op operand)
  | pattern op =>
    exact (h .column).bind fun column => (h .pattern).bind fun text =>
      mirrors_ok (pattern column op text)
  | member op =>
    exact (h .column).bind fun column => (h .values).bind fun values =>
      (h .subquery).bind fun subquery => mirrors_ok (member column op values subquery)
  | null test => exact (h .column).bind fun column => mirrors_ok (null column test)
  | isOwner => exact (h .column).bind fun column => mirrors_ok (isOwner column)
  | isPublic => exact (h .column).bind fun column => mirrors_ok (isPublic column)
  | belongsToTenant =>
    exact (h .column).bind fun column => (h .setting).bind fun setting =>
      mirrors_ok (belongsToTenant column setting)
  | isMemberOf =>
    exact (h .joinTable).bind fun table => (h .foreignKey).bind fun foreignKey =>
      (h .localKey).bind fun localKey => mirrors_ok (isMemberOf table foreignKey localKey)
  | userBelongsTo =>
    exact (h .column).bind fun column => (h .table).bind fun table =>
      (h .select).bind fun select => mirrors_ok (userBelongsTo column table select)
  | releasedBefore =>
    exact (h .column).bind fun column => (h .date).bind fun date =>
      mirrors_ok (releasedBefore column date)
  | hasRole =>
    exact (h .role).bind fun role => (h .table).bind fun table => mirrors_ok (hasRole role table)
  | alwaysTrue => rfl
  | call =>
    exact (h .function).bind fun function => (h .args).bind fun args =>
      mirrors_ok (call function args)
  | group op => exact (h .members).bind fun members => mirrors_ok (group op members)

/-- Reading a predicate without its tag commutes with widening. -/
theorem ofRecord_widen (hp : ReadsAlike predicate) (kind : Kind) (j : Json) : Mirrors (mapIntegers OperandDraft.ofInteger)
    (ofRecord predicate kind j) (ofRecord predicate kind j.widen) := by
  have habsent (f : Field) :
      (kind.record.absent f).map (widenContent f) = kind.record.absent f := by
    cases f <;> first | rfl | exact Option.map_id_apply
  exact (kind.record.ofJson_widen false (content_widen hp) j).bind fun slots =>
    build_widen kind fun f => kind.record.mirrors_get habsent slots f

end PredicateDraft

end

/-! ### Predicates as a whole -/

namespace PredicateDraft

/-- Reading a predicate commutes with widening, at every depth. -/
theorem ofJsonWithin_widen (depth : Nat) (j : Json) :
    Mirrors (mapIntegers OperandDraft.ofInteger) (ofJsonWithin depth j)
      (ofJsonWithin depth j.widen) := by
  induction depth generalizing j with
  | zero => rfl
  | succ depth ih =>
    exact (kinds.ofJson_widen (by decide) j).bind fun p => ofRecord_widen ih p.1 p.2

/-- Reading a predicate commutes with widening, which leaves its height. -/
theorem ofJson_widen (j : Json) :
    Mirrors (mapIntegers OperandDraft.ofInteger) (ofJson j) (ofJson j.widen) := by
  unfold ofJson
  rw [j.height_widen]
  exact ofJsonWithin_widen j.height j

/-- Reading a predicate straight from the text commutes with widening. -/
theorem ofReading_widen (r : Json.Reading) :
    Mirrors (mapIntegers OperandDraft.ofInteger) (ofReading r) (ofReading r.widen) :=
  (kinds.ofReading_widen r).bind fun p => ofRecord_widen ofJson_widen p.1 p.2

end PredicateDraft

end RowPolicy
