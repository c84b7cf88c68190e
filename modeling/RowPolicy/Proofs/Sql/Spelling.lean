import RowPolicy.Proofs.Sql.Unambiguous
import RowPolicy.Proofs.Sql.Literal

namespace RowPolicy

/-!
# Written names, read back

A name in quotes is read back as what it was, and so is an identifier, quoted or not.  The
written form of a reference depends on the names in it, and tells them apart.  No written
name has a space outside quotes, so a text can be cut behind it:

* `Reference.quotedName_quoteIdentifier`, `Reference.nameOf_escapeIdentifier` — names and
  identifiers;
* `Sql.quoted_eq_quoted_iff` — references that are written alike;
* `Sql.cutAtSpace`, `Sql.Unspaced` — the word at the start of a text;
* `Sql.Inert` — a text without spaces and brackets outside quotes, such as
  `Sql.inert_quoted` and `Sql.inert_escapeIdentifier`: written names and strings.
-/

/-! ### Quotes -/

namespace Quoted

/-- A text with its marks doubled is read back up to the closing mark. -/
theorem readBody_doubled (mark : Char) (s : List Char) :
    readBody? mark (doubled mark s ++ [mark]) = some s := by
  -- the induction is on the text, whose marks are met in pairs
  induction s with
  | nil => simp [doubled, readBody?]
  | cons c s ih =>
    rw [doubled]
    by_cases hc : c = mark
    · rw [if_pos hc, hc, List.cons_append, List.cons_append, readBody?, if_pos rfl, if_pos rfl, ih]
      rfl
    · -- what stands behind `c` is not empty, since the closing mark is there
      obtain ⟨d, t, hdt⟩ : ∃ d t, doubled mark s ++ [mark] = d :: t :=
        List.exists_cons_of_ne_nil (by simp)
      rw [if_neg hc, List.cons_append, hdt, readBody?, if_neg hc, ← hdt, ih]
      rfl

/-- Reading gives back what was written. -/
theorem read_write (mark : Char) (s : List Char) : read? mark (write mark s) = some s := by
  rw [write, read?, if_pos rfl, readBody_doubled]

end Quoted

namespace Reference

/-- A quoted name is recognized as quoted, with that name in it. -/
theorem quotedName_quoteIdentifier (name : String) :
    quotedName? (quoteIdentifier name) = some name := by
  rw [quotedName?, quoteIdentifier, String.toList_ofList, Quoted.read_write, Option.map_some,
    String.ofList_toList]

/-- Names that are quoted alike are the same. -/
theorem quoteIdentifier_injective {a b : String} (h : quoteIdentifier a = quoteIdentifier b) :
    a = b := by
  have hread := quotedName_quoteIdentifier a
  rw [h, quotedName_quoteIdentifier] at hread
  exact (Option.some.inj hread).symm

/-- A plain name does not begin with a quotation mark. -/
theorem quotedName_of_isPlainName {name : String} (h : isPlainName name = true) :
    quotedName? name = none := by
  cases hname : quotedName? name with
  | none => rfl
  | some content =>
    rw [isPlainName, Bool.and_eq_true, List.all_eq_true] at h
    have hmark : '"' ∈ name.toList := by
      rw [Sql.eq_quoteIdentifier hname, quoteIdentifier, String.toList_ofList, Quoted.write]
      exact List.mem_cons_self
    exact absurd (h.2 '"' hmark) (by decide)

/-- An identifier denotes the name that it was written for. -/
theorem nameOf_escapeIdentifier (name : String) : nameOf (escapeIdentifier name) = name := by
  rw [nameOf, escapeIdentifier]
  by_cases hplain : isPlainName name = true
  · rw [if_pos hplain, quotedName_of_isPlainName hplain, Option.getD_none]
  · rw [if_neg hplain, quotedName_quoteIdentifier, Option.getD_some]

end Reference

namespace Sql

/-! ### References -/

/-- A name as text. -/
def Name.text : Name → String
  | bare s => s
  | quoted s => quoteIdentifier s
  | star => "*"

/-- A segment in quotes is written as the text of its name. -/
theorem writeSegment_quoteIdentifier (segment : String) :
    Reference.writeSegment quoteIdentifier segment = (segmentName .quoted segment).text := by
  rw [Reference.writeSegment, segmentName]
  -- `*`, a segment in quotes, and any other one, as the writer asks for them
  by_cases hstar : segment = "*"
  · rw [if_pos (.inl hstar), if_pos hstar, hstar]
    rfl
  · rw [if_neg hstar]
    cases hname : Reference.quotedName? segment with
    | some name =>
      rw [if_pos (.inr rfl)]
      exact eq_quoteIdentifier hname
    | none =>
      rw [if_neg (by simp [hstar])]
      rfl

/-- A reference in quotes is written as its names with dots between them. -/
theorem quoted_eq_joined (reference : String) :
    Reference.quoted reference = joined "." ((quotedPath reference).map Name.text) := by
  rw [Reference.quoted, Reference.write, quotedPath, pathWith, List.map_map]
  congr 1
  exact List.map_congr_left fun segment _ => writeSegment_quoteIdentifier segment

/-- Two references are written alike if and only if they are paths of the same names. -/
theorem quoted_eq_quoted_iff {a b : String} :
    Reference.quoted a = Reference.quoted b ↔ quotedPath a = quotedPath b := by
  constructor
  · intro h
    have htokens := (spells_quoted a).tokens?
    rw [h, (spells_quoted b).tokens?, Option.some.injEq] at htokens
    exact pathPieces_injective (tokensOf_injective htokens.symm)
  · intro h
    rw [quoted_eq_joined, quoted_eq_joined, h]

/-! ### Spaces -/

/-- What is bare in two texts is bare in each. -/
theorem bare_append (place : Place) (a b : List Char) :
    bare place (a ++ b) = bare place a ++ bare (place.after a) b := by
  induction a generalizing place with
  | nil => rfl
  | cons c a ih => rw [List.cons_append, bare, bare, ih, Place.after_cons, List.cons_append]

/-- Two texts are scanned one after the other. -/
theorem after_append (place : Place) (a b : List Char) :
    place.after (a ++ b) = (place.after a).after b :=
  List.foldl_append

/-- A text cut in front of its first space outside quotes. -/
def cutAtSpace : Place → List Char → List Char × List Char
  | _, [] => ([], [])
  | place, c :: s =>
    if place.shown c = some ' ' then ([], c :: s)
    else (c :: (cutAtSpace (place.next c) s).1, (cutAtSpace (place.next c) s).2)

/-- A text that closes its quotes and has no space outside them. -/
structure Unspaced (s : List Char) : Prop where
  ends_outside : Place.outside.after s = .outside
  no_space : some ' ' ∉ bare .outside s

/-- A word with a space behind it, or nothing, is cut off as a whole. -/
theorem Unspaced.cutAtSpace_append {word rest : List Char} (h : Unspaced word)
    (hrest : ∀ c ∈ rest.head?, c = ' ') : cutAtSpace .outside (word ++ rest) = (word, rest) := by
  -- on the word, from any place
  have hall (place : Place) (hafter : place.after word = .outside)
      (hspace : some ' ' ∉ bare place word) : cutAtSpace place (word ++ rest) = (word, rest) := by
    clear h
    induction word generalizing place with
    | nil =>
      cases rest with
      | nil => rfl
      | cons c rest =>
        obtain rfl : c = ' ' := hrest c rfl
        obtain rfl : place = .outside := hafter
        rfl
    | cons c word ih =>
      rw [bare, List.mem_cons, not_or] at hspace
      rw [List.cons_append, cutAtSpace, if_neg (Ne.symm hspace.1), ih _ hafter hspace.2]
  exact hall .outside h.ends_outside h.no_space

/-- A character that parts what stands around it: a space or a bracket. -/
def isParting (c : Char) : Bool := " ()[]".toList.contains c

/-- A text that is not empty, closes its quotes and has neither spaces nor brackets outside
    them. -/
structure Inert (s : List Char) : Prop where
  ne_nil : s ≠ []
  ends_outside : Place.outside.after s = .outside
  no_parting : ∀ c, some c ∈ bare .outside s → isParting c = false

/-- A text without parting characters has no space outside quotes. -/
theorem Inert.unspaced {s : List Char} (h : Inert s) : Unspaced s where
  ends_outside := h.ends_outside
  no_space := fun hspace => absurd (h.no_parting ' ' hspace) (by decide)

/-- Two texts without parting characters are one without. -/
theorem Inert.append {a b : List Char} (ha : Inert a) (hb : Inert b) : Inert (a ++ b) where
  ne_nil := List.append_ne_nil_of_left_ne_nil ha.ne_nil b
  ends_outside := by rw [after_append, ha.ends_outside, hb.ends_outside]
  no_parting := by
    intro c hc
    rw [bare_append, ha.ends_outside, List.mem_append] at hc
    exact hc.elim (ha.no_parting c) (hb.no_parting c)

/-- A text is inert if its characters are neither marks nor parting. -/
theorem inert_of_forall {s : List Char} (hne : s ≠ [])
    (h : ∀ c ∈ s, isMark c = false ∧ isParting c = false) : Inert s := by
  induction s with
  | nil => exact absurd rfl hne
  | cons c s ih =>
    rw [List.forall_mem_cons] at h
    -- a character by itself is inert if it is neither
    have hhere : Inert [c] := by
      refine ⟨List.cons_ne_nil c [], by simp [Place.next, h.1.1], fun d hd => ?_⟩
      rw [bare, bare, List.mem_singleton, Place.shown, if_pos ⟨rfl, h.1.1⟩] at hd
      rw [Option.some.inj hd, h.1.2]
    cases s with
    | nil => exact hhere
    | cons d s => exact hhere.append (ih (List.cons_ne_nil d s) h.2)

/-- The same for a text that is written out. -/
theorem inert_of_all {s : String}
    (h : (!s.toList.isEmpty && s.toList.all fun c => !isMark c && !isParting c) = true) :
    Inert s.toList := by
  rw [Bool.and_eq_true, List.all_eq_true] at h
  refine inert_of_forall (by simpa using h.1) fun c hc => ?_
  simpa using h.2 c hc

/-- Inside quotes nothing shows, a doubled mark included. -/
theorem inside_doubled {mark : Char} (hmark : isMark mark = true) (s : List Char) :
    (Place.inside mark).after (Quoted.doubled mark s) = .inside mark ∧
      ∀ c ∈ bare (.inside mark) (Quoted.doubled mark s), c = none := by
  induction s with
  | nil => simp [Quoted.doubled, bare]
  | cons c s ih =>
    rw [Quoted.doubled]
    by_cases hc : c = mark
    · simpa [hc, Place.next, hmark, bare, Place.shown] using ih
    · simpa [hc, Place.next, bare, Place.shown] using ih

/-- A text between marks is inert, whatever is in it. -/
theorem inert_write {mark : Char} (hmark : isMark mark = true) (s : List Char) :
    Inert (Quoted.write mark s) := by
  obtain ⟨hafter, hhidden⟩ := inside_doubled hmark s
  have hopen : Place.outside.next mark = .inside mark := by simp [Place.next, hmark]
  refine ⟨List.cons_ne_nil _ _, ?_, fun c hc => ?_⟩
  -- the marks are outside quotes, but nothing between them is
  · rw [Quoted.write, Place.after_cons, hopen, after_append, hafter]
    simp [Place.next]
  · rw [Quoted.write, bare, hopen, bare_append, hafter] at hc
    simp only [bare, Place.shown, hmark, List.mem_cons, List.mem_append] at hc
    obtain hc | hc | hc := hc
    · simp at hc
    · cases hhidden _ hc
    · simp at hc

/-- A quoted name is inert. -/
theorem inert_quoteIdentifier (name : String) : Inert (quoteIdentifier name).toList := by
  rw [quoteIdentifier, String.toList_ofList]
  exact inert_write (by decide) name.toList

/-- A quoted text is inert. -/
theorem inert_quoteText (text : String) : Inert (quoteText text).toList := by
  rw [quoteText, String.toList_ofList]
  exact inert_write (by decide) text.toList

/-- Words have no marks, spaces and brackets in them. -/
theorem not_isParting {c : Char} (h : isWordChar c = true) :
    isMark c = false ∧ isParting c = false := by
  have hother (d : Char) (hd : isWordChar d = false) : c ≠ d := by
    rintro rfl
    rw [h] at hd
    cases hd
  constructor
  · simp [isMark, hother '\'' rfl, hother '"' rfl]
  · simp [isParting, hother ' ' rfl, hother '(' rfl, hother ')' rfl, hother '[' rfl, hother ']' rfl]

/-- A plain name is inert. -/
theorem inert_of_isPlainName {name : String} (h : isPlainName name = true) :
    Inert name.toList := by
  rw [isPlainName, Bool.and_eq_true, List.all_eq_true] at h
  exact inert_of_forall (by simpa using h.1) fun c hc => not_isParting (h.2 c hc)

/-- A name that is quoted only where it has to be is inert. -/
theorem inert_escapeIdentifier (name : String) : Inert (escapeIdentifier name).toList := by
  rw [escapeIdentifier]
  by_cases hplain : isPlainName name = true
  · rw [if_pos hplain]
    exact inert_of_isPlainName hplain
  · rw [if_neg hplain]
    exact inert_quoteIdentifier name

/-- Inert items with an inert separator are inert. -/
theorem inert_joined {sep : String} (hsep : Inert sep.toList) {items : List String}
    (hne : items ≠ []) (h : ∀ item ∈ items, Inert item.toList) :
    Inert (joined sep items).toList := by
  induction items with
  | nil => exact absurd rfl hne
  | cons item items ih =>
    rw [List.forall_mem_cons] at h
    cases items with
    | nil => exact h.1
    | cons next items =>
      rw [joined_cons_cons, String.toList_append, String.toList_append]
      exact (h.1.append hsep).append (ih (List.cons_ne_nil next items) h.2)

/-- A reference is inert if its names are. -/
theorem inert_reference {form : String → String} (hform : ∀ name, Inert (form name).toList)
    (reference : String) : Inert (Reference.write form reference).toList := by
  have hdot : Inert ".".toList := inert_of_all (by decide)
  refine inert_joined hdot (by simp [Reference.segments]) fun item hitem => ?_
  obtain ⟨segment, -, rfl⟩ := List.mem_map.mp hitem
  rw [Reference.writeSegment]
  split
  · rename_i hverbatim
    -- a segment that is written as it is is `*`, or in quotes
    obtain rfl | hquoted := hverbatim
    · exact inert_of_all (by decide)
    · obtain ⟨name, hname⟩ := Option.isSome_iff_exists.mp hquoted
      rw [eq_quoteIdentifier hname]
      exact inert_quoteIdentifier name
  · exact hform segment

/-- A reference in quotes is inert. -/
theorem inert_quoted (reference : String) : Inert (Reference.quoted reference).toList :=
  inert_reference inert_quoteIdentifier reference

/-- A reference that is quoted only where it has to be is inert. -/
theorem inert_escaped (reference : String) : Inert (Reference.escaped reference).toList :=
  inert_reference inert_escapeIdentifier reference

end Sql

end RowPolicy
