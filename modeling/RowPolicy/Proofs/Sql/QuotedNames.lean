import Mathlib.Data.List.Induction
import RowPolicy.Proofs.Sql.Spelling

namespace RowPolicy.Sql

/-!
# The names in quotes in SQL text

Which names stand in double quotes can be seen in any text, whether it has tokens or not, from
left to right.  A text that closes its quotes keeps its names wherever it stands, as long as no
other quotation mark touches one of its own:

* `NameScan`, `NameScan.next` — what a scan for names is in, and one more character;
* `quotedNames` — the names in quotes in a text, from left to right;
* `mem_quotedNames` — they are the names that stand in the text as they are quoted;
* `Closes`, `quotedNames_append`, `quotedNames_joined` — texts put together;
* `mem_quotedNames_quoted` — the names in a reference.
-/

/-! ### The scan -/

/-- Marks are doubled one by one. -/
theorem doubled_append (mark : Char) (a b : List Char) :
    Quoted.doubled mark (a ++ b) = Quoted.doubled mark a ++ Quoted.doubled mark b := by
  induction a with
  | nil => rfl
  | cons c a ih =>
    rw [List.cons_append, Quoted.doubled, Quoted.doubled, ih]
    split <;> rfl

/-- What a scan for names in quotes is in. -/
inductive NameScan where
  | code
  /-- Inside a string. -/
  | text
  /-- Inside the quotes of a name. -/
  | name (s : List Char)
  /-- Behind a mark that closes the quotes of a name, unless it is written twice. -/
  | closed (s : List Char)
  deriving DecidableEq, Repr

namespace NameScan

/-- What the scan is in behind one more character. -/
def next : NameScan → Char → NameScan
  | code, c => if c = '"' then name [] else if c = '\'' then text else code
  | text, c => if c = '\'' then code else text
  | name s, c => if c = '"' then closed s else name (s ++ [c])
  | closed s, c => if c = '"' then name (s ++ [c]) else if c = '\'' then text else code

/-- What the scan is in behind a text. -/
def after (st : NameScan) (s : List Char) : NameScan := s.foldl next st

/-- The name that is complete unless its last mark is written twice. -/
def complete : NameScan → List String
  | closed s => [String.ofList s]
  | _ => []

/-- A name is complete exactly if its quotes have just been closed. -/
theorem mem_complete {st : NameScan} {name : String} :
    name ∈ st.complete ↔ st = .closed name.toList := by
  cases st with
  | closed t => simp [complete, ← String.toList_inj, eq_comm]
  | _ => simp [complete]

/-- Where a scan for quotes of any kind stands. -/
def place : NameScan → Place
  | code | closed _ => .outside
  | text => .inside '\''
  | name _ => .inside '"'

/-- A step of the scan is one of the plain scan for quotes. -/
theorem place_next (st : NameScan) (c : Char) : (st.next c).place = st.place.next c := by
  by_cases hname : c = '"'
  · subst hname
    cases st <;> rfl
  · by_cases htext : c = '\'' <;> cases st <;> simp [next, place, Place.next, isMark, hname, htext]

/-- So is a whole run. -/
theorem place_after (st : NameScan) (s : List Char) : (st.after s).place = st.place.after s := by
  induction s generalizing st with
  | nil => rfl
  | cons c s ih =>
    show ((st.next c).after s).place = (st.place.next c).after s
    rw [ih, place_next]

/-- Two texts are scanned one after the other. -/
theorem after_append (st : NameScan) (a b : List Char) :
    st.after (a ++ b) = (st.after a).after b := List.foldl_append

/-- A scan is back in code if it is outside quotes and no mark stands right in front. -/
theorem after_eq_code_iff {s : List Char} :
    code.after s = code ↔ Place.outside.after s = .outside ∧ s.getLast? ≠ some '"' := by
  have hplace := place_after code s
  rw [show code.place = .outside from rfl] at hplace
  rw [← hplace]
  -- the last character tells whether a name has just been closed
  rcases List.eq_nil_or_concat s with rfl | ⟨s, c, rfl⟩
  · simp [after, place]
  · have hlast : code.after (s ++ [c]) = (code.after s).next c := after_append code s [c]
    rw [List.concat_eq_append, hlast, List.getLast?_concat, Ne, Option.some.injEq]
    by_cases hname : c = '"'
    · subst hname
      cases code.after s <;> simp [next, place]
    · by_cases htext : c = '\'' <;> cases code.after s <;> simp [next, place, hname, htext]

/-- Between its quotes a name is read with its doubled marks as single ones. -/
theorem after_doubled (s t : List Char) : (name s).after (Quoted.doubled '"' t) = name (s ++ t) := by
  induction t generalizing s with
  | nil => rw [Quoted.doubled, List.append_nil]; rfl
  | cons c t ih =>
    rw [Quoted.doubled]
    -- a doubled mark is one in the name
    by_cases hc : c = '"'
    · subst hc
      show (name (s ++ ['"'])).after _ = _
      rw [ih, List.append_assoc]
      rfl
    · have hnext : (name s).next c = name (s ++ [c]) := if_neg hc
      rw [if_neg hc]
      show ((name s).next c).after _ = _
      rw [hnext, ih, List.append_assoc]
      rfl

/-- A name in quotes leaves the scan with the name. -/
theorem after_write (s : List Char) : code.after (Quoted.write '"' s) = closed s := by
  show (name []).after (Quoted.doubled '"' s ++ ['"']) = _
  rw [after_append, after_doubled]
  rfl

/-- Inside the quotes of a name, and right behind them, the scan has passed what it says. -/
theorem eq_of_after (s : List Char) :
    (∀ t, code.after s = name t →
        ∃ front, s = front ++ '"' :: Quoted.doubled '"' t ∧ code.after front = code) ∧
      ∀ t, code.after s = closed t →
        ∃ front, s = front ++ Quoted.write '"' t ∧ code.after front = code := by
  -- the induction goes over the text from its end, where the last character decides
  induction s using List.reverseRecOn with
  | nil => constructor <;> intro _ h <;> cases h
  | append_singleton s c ih =>
    obtain ⟨ihname, ihclosed⟩ := ih
    rw [after_append, show (code.after s).after [c] = (code.after s).next c from rfl]
    cases hs : code.after s with
    | code =>
      by_cases hc : c = '"'
      · subst hc
        refine ⟨fun t h => ?_, fun t h => ?_⟩
        · cases h
          exact ⟨s, rfl, hs⟩
        · cases h
      · by_cases htext : c = '\'' <;> simp [next, hc, htext]
    | text => by_cases htext : c = '\'' <;> simp [next, htext]
    -- within a name, a mark ends it for now
    | name u =>
      obtain ⟨front, rfl, hfront⟩ := ihname u hs
      by_cases hc : c = '"'
      · subst hc
        refine ⟨fun t h => ?_, fun t h => ?_⟩
        · cases h
        · cases h
          exact ⟨front, by simp [Quoted.write], hfront⟩
      · refine ⟨fun t h => ?_, fun t h => ?_⟩
        · rw [next, if_neg hc] at h
          cases h
          exact ⟨front, by simp [doubled_append, Quoted.doubled, hc], hfront⟩
        · simp [next, hc] at h
    -- a second mark opens the name again
    | closed u =>
      obtain ⟨front, rfl, hfront⟩ := ihclosed u hs
      by_cases hc : c = '"'
      · subst hc
        refine ⟨fun t h => ?_, fun t h => ?_⟩
        · cases h
          exact ⟨front, by simp [Quoted.write, doubled_append, Quoted.doubled], hfront⟩
        · cases h
      · by_cases htext : c = '\'' <;> simp [next, hc, htext]

end NameScan

/-- The names that a text completes, behind the start of one if there is one. -/
def namesFrom : NameScan → List Char → List String
  | st, [] => st.complete
  | st, c :: s => (if c = '"' then [] else st.complete) ++ namesFrom (st.next c) s

/-- The names in quotes in a text. -/
def quotedNames (s : String) : List String := namesFrom .code s.toList

/-- A name stands in a text if the scan is right behind it somewhere and no mark follows. -/
theorem mem_namesFrom {st : NameScan} {s : List Char} {name : String} :
    name ∈ namesFrom st s ↔
      ∃ front back, s = front ++ back ∧ st.after front = .closed name.toList ∧
        back.head? ≠ some '"' := by
  -- the name is complete here, or further on
  induction s generalizing st with
  | nil =>
    rw [namesFrom, NameScan.mem_complete]
    constructor
    · exact fun h => ⟨[], [], rfl, h, by simp⟩
    · rintro ⟨front, back, hnil, h, -⟩
      rw [(List.append_eq_nil_iff.mp hnil.symm).1] at h
      exact h
  | cons c s ih =>
    have hhere : name ∈ (if c = '"' then [] else st.complete) ↔
        c ≠ '"' ∧ st = .closed name.toList := by
      by_cases hc : c = '"' <;> simp [hc, NameScan.mem_complete]
    rw [namesFrom, List.mem_append, hhere, ih]
    constructor
    · rintro (⟨hc, hst⟩ | ⟨front, back, rfl, hafter, hback⟩)
      · exact ⟨[], c :: s, rfl, hst, by simpa using hc⟩
      · exact ⟨c :: front, back, rfl, hafter, hback⟩
    · rintro ⟨front, back, hsplit, hafter, hback⟩
      cases front with
      | nil =>
        rw [List.nil_append] at hsplit
        subst hsplit
        exact .inl ⟨by simpa using hback, hafter⟩
      | cons d front =>
        obtain ⟨rfl, rfl⟩ := List.cons.inj hsplit
        exact .inr ⟨front, back, rfl, hafter, hback⟩

/-- **Names in quotes.** A name is found in a text if and only if it stands there as it is
    quoted, outside other quotes and with no quotation mark next to its own. -/
theorem mem_quotedNames {s name : String} :
    name ∈ quotedNames s ↔
      ∃ front back, s.toList = front ++ ((quoteIdentifier name).toList ++ back) ∧
        Place.outside.after front = .outside ∧ front.getLast? ≠ some '"' ∧
        back.head? ≠ some '"' := by
  rw [quotedNames, mem_namesFrom]
  simp only [quoteIdentifier, String.toList_ofList]
  constructor
  -- the text up to the closing mark ends with the name in quotes
  · rintro ⟨read, back, hs, hread, hback⟩
    obtain ⟨front, rfl, hfront⟩ := (NameScan.eq_of_after read).2 _ hread
    obtain ⟨houtside, hlast⟩ := NameScan.after_eq_code_iff.mp hfront
    exact ⟨front, back, by rw [hs, List.append_assoc], houtside, hlast, hback⟩
  · rintro ⟨front, back, hs, houtside, hlast, hback⟩
    have hfront := NameScan.after_eq_code_iff.mpr ⟨houtside, hlast⟩
    refine ⟨front ++ Quoted.write '"' name.toList, back, by rw [hs, List.append_assoc], ?_, hback⟩
    rw [NameScan.after_append, hfront, NameScan.after_write]

example : quotedNames "\"a\" = 'x \"b\"' AND \"c \"\"d\".\"e\" IS NULL" = ["a", "c \"d", "e"] := by
  decide +kernel

/-! ### Texts put together -/

/-- A text that closes its quotes. -/
def Closes (s : String) : Prop := Place.outside.after s.toList = .outside

instance (s : String) : Decidable (Closes s) := inferInstanceAs (Decidable (_ = _))

/-- Two texts in a row close their quotes if each does. -/
theorem Closes.append {a b : String} (ha : Closes a) (hb : Closes b) : Closes (a ++ b) := by
  rw [Closes, String.toList_append, Sql.after_append, ha]
  exact hb

/-- Texts with a separator close their quotes if each does, and the separator too. -/
theorem closes_joined {sep : String} (hsep : Closes sep) {texts : List String}
    (h : ∀ text ∈ texts, Closes text) : Closes (joined sep texts) := by
  induction texts with
  | nil => rfl
  | cons text texts ih =>
    rw [List.forall_mem_cons] at h
    cases texts with
    | nil => exact h.1
    | cons next texts =>
      rw [joined_cons_cons]
      exact (h.1.append hsep).append (ih h.2)

/-- The names of a text and of what follows it, if no quotes go on from one to the other. -/
theorem namesFrom_append {st : NameScan} {a b : List Char}
    (h : st.after a = .code ∨ (st.after a).place = .outside ∧ b.head? ≠ some '"') :
    namesFrom st (a ++ b) = namesFrom st a ++ namesFrom .code b := by
  induction a generalizing st with
  | nil =>
    rw [List.nil_append, namesFrom]
    rcases h with h | ⟨hplace, hhead⟩
    · rw [show st = .code from h]
      rfl
    · cases b with
      | nil => exact (List.append_nil _).symm
      | cons c b =>
        have hc : c ≠ '"' := by simpa using hhead
        rw [namesFrom, namesFrom, if_neg hc, if_neg hc]
        -- behind a name that is complete the scan goes on as in code
        cases st with
        | code => rfl
        | closed t => simp [NameScan.next, NameScan.complete, hc]
        | text | name => cases hplace
  | cons c a ih =>
    rw [List.cons_append, namesFrom, namesFrom, ih h, List.append_assoc]

/-- A text that closes its quotes keeps its names in front of anything but a mark. -/
theorem quotedNames_append {a b : String} (ha : Closes a) (hb : b.toList.head? ≠ some '"') :
    quotedNames (a ++ b) = quotedNames a ++ quotedNames b := by
  have hplace : (NameScan.code.after a.toList).place = .outside := by
    rw [NameScan.place_after]
    exact ha
  rw [quotedNames, String.toList_append, namesFrom_append (.inr ⟨hplace, hb⟩)]
  rfl

/-- A text that separates those around it: it is not empty and has no quotation marks. -/
def Separates (sep : String) : Prop := sep.toList ≠ [] ∧ ∀ c ∈ sep.toList, isMark c = false

-- a character has finitely many values, and none of them is to be tried here
instance (sep : String) : Decidable (Separates sep) :=
  @instDecidableAnd _ _ _ (List.decidableBAll _ _)

/-- A separator has no quotes to close. -/
theorem Separates.closes {sep : String} (h : Separates sep) : Closes sep := by
  have hall (s : List Char) (hs : ∀ c ∈ s, isMark c = false) :
      Place.outside.after s = .outside := by
    induction s with
    | nil => rfl
    | cons c s ih =>
      rw [List.forall_mem_cons] at hs
      rw [Place.after_cons, Place.next, hs.1]
      exact ih hs.2
  exact hall _ h.2

/-- A separator keeps the names in front of it from those behind it. -/
theorem quotedNames_separated {a sep b : String} (ha : Closes a) (hsep : Separates sep) :
    quotedNames (a ++ sep ++ b) = quotedNames a ++ quotedNames b := by
  -- no mark is in a separator, so no quotes are opened or go on there
  have hmark (c : Char) (hc : c ∈ sep.toList) : c ≠ '"' := by
    rintro rfl
    exact absurd (hsep.2 '"' hc) (by decide)
  have hlast : NameScan.code.after sep.toList = .code :=
    NameScan.after_eq_code_iff.mpr ⟨hsep.closes, fun h => hmark '"' (List.mem_of_getLast? h) rfl⟩
  have hnames : namesFrom .code sep.toList = [] := by
    refine List.eq_nil_iff_forall_not_mem.mpr fun name hname => ?_
    obtain ⟨front, back, hs, -⟩ := mem_quotedNames.mp (show name ∈ quotedNames sep from hname)
    exact hmark '"' (by simp [hs, quoteIdentifier, Quoted.write]) rfl
  have hhead : (sep ++ b).toList.head? ≠ some '"' := by
    rw [String.toList_append, List.head?_append_of_ne_nil _ hsep.1]
    exact fun h => hmark '"' (List.mem_of_head? h) rfl
  have hbehind : quotedNames (sep ++ b) = quotedNames b := by
    rw [quotedNames, String.toList_append, namesFrom_append (.inl hlast), hnames]
    rfl
  rw [String.append_assoc, quotedNames_append ha hhead, hbehind]

/-- No name is read from a separator in front. -/
theorem quotedNames_behind {sep : String} (hsep : Separates sep) (s : String) :
    quotedNames (sep ++ s) = quotedNames s := by
  have hall : quotedNames ("" ++ sep ++ s) = quotedNames s :=
    quotedNames_separated (show Closes "" from rfl) hsep
  rwa [String.empty_append] at hall

/-- No name is read from a separator behind. -/
theorem quotedNames_inFront {s sep : String} (h : Closes s) (hsep : Separates sep) :
    quotedNames (s ++ sep) = quotedNames s := by
  have hall : quotedNames (s ++ sep ++ "") = quotedNames s ++ [] := quotedNames_separated h hsep
  rwa [String.append_empty, List.append_nil] at hall

/-- The names in texts with a separator are those in each text. -/
theorem quotedNames_joined {sep : String} (hsep : Separates sep) {texts : List String}
    (h : ∀ text ∈ texts, Closes text) :
    quotedNames (joined sep texts) = texts.flatMap quotedNames := by
  induction texts with
  | nil => rfl
  | cons text texts ih =>
    rw [List.forall_mem_cons] at h
    cases texts with
    | nil => simp
    | cons next texts =>
      rw [joined_cons_cons, quotedNames_separated h.1 hsep, ih h.2]
      rfl

/-! ### References -/

/-- A quoted name closes its quotes. -/
theorem closes_quoteIdentifier (name : String) : Closes (quoteIdentifier name) :=
  (inert_quoteIdentifier name).ends_outside

/-- A reference in quotes closes its quotes. -/
theorem closes_quoted (reference : String) : Closes (Reference.quoted reference) :=
  (inert_quoted reference).ends_outside

/-- A quoted name is read from its own text. -/
theorem mem_quotedNames_quoteIdentifier (name : String) :
    name ∈ quotedNames (quoteIdentifier name) := by
  refine mem_quotedNames.mpr ⟨[], [], ?_, rfl, by simp, by simp⟩
  rw [List.nil_append, List.append_nil]

/-- Each segment of a reference is written as its name, in quotes. -/
theorem mem_quotedNames_quoted {reference segment : String}
    (hsegment : segment ∈ Reference.segments reference) (hstar : segment ≠ "*") :
    Reference.nameOf segment ∈ quotedNames (Reference.quoted reference) := by
  -- each segment is a name in quotes of its own, but for `*`
  have hwritten : Reference.writeSegment quoteIdentifier segment =
      quoteIdentifier (Reference.nameOf segment) := by
    rw [writeSegment_quoteIdentifier, segmentName, if_neg hstar, Reference.nameOf]
    cases Reference.quotedName? segment <;> rfl
  have hcloses (text : String)
      (h : text ∈ (Reference.segments reference).map (Reference.writeSegment quoteIdentifier)) :
      Closes text := by
    obtain ⟨s, -, rfl⟩ := List.mem_map.mp h
    rw [writeSegment_quoteIdentifier, segmentName]
    split
    · exact (by decide : Closes "*")
    · split <;> exact closes_quoteIdentifier _
  rw [Reference.quoted, Reference.write, quotedNames_joined (by decide) hcloses, List.mem_flatMap]
  refine ⟨_, List.mem_map_of_mem hsegment, ?_⟩
  rw [hwritten]
  exact mem_quotedNames_quoteIdentifier _

end RowPolicy.Sql
