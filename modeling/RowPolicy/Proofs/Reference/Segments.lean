import RowPolicy.Proofs.Sql.Naming
import RowPolicy.Proofs.Sql.Spelling

namespace RowPolicy.Reference

/-!
# References, read before and after they are written

A reference is cut at its dots outside quotes, also where quotes are left open, stand in the
middle of a segment or surround nothing.  What it is written as is cut into as many segments,
and each of them denotes the name that it was written for:

* `Closed`, `segments_joined` — texts that are segments wherever they stand, and references
  that are made of them;
* `WritesNames`, `segments_write` — a way to write names, and the segments that it writes;
* `write_quoted`, `write_escaped` — what is written, written once more;
* `written_readAlike` — writing a reference, in both ways, does not change how it is read;
* `path_readBack` — every path of names is read back from its quoted form.
-/

/-! ### Texts that are segments -/

/-- A text that is not cut and has no part in how the text behind it is cut. -/
def Closed (s : List Char) : Prop :=
  ∀ rest, cut false (s ++ rest) = (s ++ (cut false rest).1, (cut false rest).2)

/-- A text without dots and quotes is closed. -/
theorem closed_of_forall {s : List Char} (h : ∀ c ∈ s, c ≠ '.' ∧ c ≠ '"') : Closed s := by
  intro rest
  induction s with
  | nil => rfl
  | cons c s ih =>
    rw [List.forall_mem_cons] at h
    have hmark : (c == '"') = false := by simpa using h.1.2
    simp [cut, h.1.1, hmark, ih h.2]

/-- Doubled quotes hide the dots between them. -/
theorem cut_doubled (s rest : List Char) :
    cut true (Quoted.doubled '"' s ++ rest) =
      (Quoted.doubled '"' s ++ (cut true rest).1, (cut true rest).2) := by
  induction s with
  | nil => rfl
  | cons c s ih =>
    by_cases hc : c = '"'
    · subst hc
      simp [Quoted.doubled, cut, ih]
    · have hother : (c == '"') = false := by simpa using hc
      simp [Quoted.doubled, cut, hc, hother, ih]

/-- A name in quotes is closed, as its quotes come in pairs. -/
theorem closed_quoteIdentifier (name : String) : Closed (quoteIdentifier name).toList := by
  intro rest
  have hinside := cut_doubled name.toList ('"' :: rest)
  simp [quoteIdentifier, Quoted.write, cut, hinside]

/-- A name that is quoted only where it has to be is closed. -/
theorem closed_escapeIdentifier (name : String) : Closed (escapeIdentifier name).toList := by
  rw [escapeIdentifier]
  by_cases hplain : isPlainName name = true
  · rw [if_pos hplain]
    rw [isPlainName, Bool.and_eq_true, List.all_eq_true] at hplain
    refine closed_of_forall fun c hc => ?_
    have hword := hplain.2 c hc
    -- neither a dot nor a quote is a character of words
    constructor
    · rintro rfl
      cases hword
    · rintro rfl
      cases hword
  · rw [if_neg hplain]
    exact closed_quoteIdentifier name

/-- A closed text in front of a dot is the first segment. -/
theorem segments_cons {segment : String} (h : Closed segment.toList) (reference : String) :
    segments (segment ++ "." ++ reference) = segment :: segments reference := by
  have hcut := h ('.' :: reference.toList)
  simp [segments, hcut, cut]

/-- A closed text is its only segment. -/
theorem segments_singleton {segment : String} (h : Closed segment.toList) :
    segments segment = [segment] := by
  have hcut := h []
  rw [List.append_nil] at hcut
  simp [segments, hcut, cut]

/-- A reference made of closed texts has them as its segments. -/
theorem segments_joined {texts : List String} (hne : texts ≠ [])
    (h : ∀ text ∈ texts, Closed text.toList) : segments (joined "." texts) = texts := by
  induction texts with
  | nil => exact absurd rfl hne
  | cons text texts ih =>
    rw [List.forall_mem_cons] at h
    cases texts with
    | nil => exact segments_singleton h.1
    | cons next texts => rw [joined_cons_cons, segments_cons h.1, ih (by simp) h.2]

/-- The segments of a reference make it up, whatever it is. -/
theorem joined_segments (reference : String) : joined "." (segments reference) = reference := by
  -- the first segment, and the others with a dot in front of each
  have hjoined (first : List Char) (rest : List (List Char)) :
      (joined "." ((first :: rest).map String.ofList)).toList =
        first ++ rest.flatMap ('.' :: ·) := by
    induction rest generalizing first with
    | nil => simp
    | cons next rest ih =>
      rw [List.map_cons, List.map_cons, joined_cons_cons, ← List.map_cons, String.toList_append,
        String.toList_append, ih]
      simp
  rw [← String.toList_inj, segments, hjoined]
  exact cut_flatten false reference.toList

/-! ### Ways to write names -/

/-- A way to write names: each becomes a segment that denotes it. -/
structure WritesNames (form : String → String) : Prop where
  closed (name : String) : Closed (form name).toList
  nameOf_form (name : String) : nameOf (form name) = name

/-- A name in quotes is read as the name. -/
theorem nameOf_quoteIdentifier (name : String) : nameOf (quoteIdentifier name) = name := by
  rw [nameOf, quotedName_quoteIdentifier, Option.getD_some]

/-- Quoting names writes them so that they can be read. -/
theorem writesNames_quoteIdentifier : WritesNames quoteIdentifier :=
  ⟨closed_quoteIdentifier, nameOf_quoteIdentifier⟩

/-- So does quoting them only where it has to be. -/
theorem writesNames_escapeIdentifier : WritesNames escapeIdentifier :=
  ⟨closed_escapeIdentifier, nameOf_escapeIdentifier⟩

/-- A segment that stands as it is, however names are written. -/
def Verbatim (segment : String) : Prop := segment = "*" ∨ (quotedName? segment).isSome

/-- What is written as it is stays under every form. -/
theorem writeSegment_verbatim {segment : String} (h : Verbatim segment)
    (form : String → String) : writeSegment form segment = segment := if_pos h

/-- Every other segment is written in the form. -/
theorem writeSegment_form {segment : String} (h : ¬ Verbatim segment)
    (form : String → String) : writeSegment form segment = form segment := if_neg h

/-- A name in quotes is written as it is. -/
theorem verbatim_quoteIdentifier (name : String) : Verbatim (quoteIdentifier name) := by
  refine .inr ?_
  rw [quotedName_quoteIdentifier]
  rfl

/-- What is written as it is has no dot outside quotes. -/
theorem closed_verbatim {segment : String} (h : Verbatim segment) : Closed segment.toList := by
  obtain rfl | hquoted := h
  · exact closed_of_forall (by simp)
  · obtain ⟨name, hname⟩ := Option.isSome_iff_exists.mp hquoted
    rw [Sql.eq_quoteIdentifier hname]
    exact closed_quoteIdentifier name

namespace WritesNames

variable {form : String → String} (hform : WritesNames form)

include hform

/-- A segment as it is written has no dot outside quotes. -/
theorem closed_writeSegment (segment : String) : Closed (writeSegment form segment).toList := by
  by_cases h : Verbatim segment
  · rw [writeSegment_verbatim h]
    exact closed_verbatim h
  · rw [writeSegment_form h]
    exact hform.closed segment

/-- A written segment denotes the name that the segment denotes. -/
theorem nameOf_writeSegment (segment : String) :
    nameOf (writeSegment form segment) = nameOf segment := by
  by_cases h : Verbatim segment
  · rw [writeSegment_verbatim h]
  · have hself : quotedName? segment = none := by
      rw [Verbatim, not_or] at h
      simpa using h.2
    rw [writeSegment_form h, hform.nameOf_form, nameOf, hself, Option.getD_none]

/-- What is written has the written segments as its segments. -/
theorem segments_write (reference : String) :
    segments (write form reference) = (segments reference).map (writeSegment form) := by
  refine segments_joined (by simp [segments_ne_nil]) fun text htext => ?_
  obtain ⟨segment, -, rfl⟩ := List.mem_map.mp htext
  exact hform.closed_writeSegment segment

/-- Writing what is written goes segment by segment. -/
theorem write_write (other : String → String) (reference : String) :
    write other (write form reference) = joined "."
      ((segments reference).map fun segment => writeSegment other (writeSegment form segment)) := by
  rw [write, hform.segments_write, List.map_map]
  rfl

end WritesNames

/-- What is written in quotes does not change any more. -/
theorem write_quoted (form : String → String) (reference : String) :
    write form (quoted reference) = quoted reference := by
  have hverbatim (segment : String) : Verbatim (writeSegment quoteIdentifier segment) := by
    by_cases h : Verbatim segment
    · rwa [writeSegment_verbatim h]
    · rw [writeSegment_form h]
      exact verbatim_quoteIdentifier segment
  rw [quoted, writesNames_quoteIdentifier.write_write, write]
  refine congrArg _ (List.map_congr_left fun segment _ => ?_)
  exact writeSegment_verbatim (hverbatim segment) form

/-- Quotes that are written because they are needed make no difference to a form that writes
    them as well. -/
theorem write_escaped {form : String → String}
    (hform : ∀ name, isPlainName name ≠ true → form name = quoteIdentifier name)
    (reference : String) : write form (escaped reference) = write form reference := by
  rw [escaped, writesNames_escapeIdentifier.write_write, write]
  refine congrArg _ (List.map_congr_left fun segment _ => ?_)
  by_cases h : Verbatim segment
  · rw [writeSegment_verbatim h]
  · rw [writeSegment_form h escapeIdentifier, escapeIdentifier]
    by_cases hplain : isPlainName segment = true
    · rw [if_pos hplain]
    · rw [if_neg hplain, writeSegment_verbatim (verbatim_quoteIdentifier segment),
        writeSegment_form h, hform segment hplain]

/-! ### Reading what is written -/

/-- Two references that are read alike: as many segments, which denote the same names one by
    one, and hence one table and one bare name. -/
structure ReadAlike (a b : String) : Prop where
  segments : List.Forall₂ (fun s t => nameOf s = nameOf t) (segments a) (segments b)
  qualifier : qualifier? a = qualifier? b
  columnName : columnName a = columnName b

/-- The table that a reference points into depends on the names of its segments. -/
theorem qualifier_eq_of_forall₂ {a b : String}
    (h : List.Forall₂ (fun s t => nameOf s = nameOf t) (segments a) (segments b)) :
    qualifier? a = qualifier? b := by
  rw [qualifier?, qualifier?]
  generalize segments a = as at h ⊢
  generalize segments b = bs at h ⊢
  cases h with
  | nil => rfl
  | cons hfirst hrest =>
    cases hrest with
    | nil => rfl
    | cons => simp only [hfirst]

/-- So does its bare name. -/
theorem columnName_eq_of_forall₂ {a b : String}
    (h : List.Forall₂ (fun s t => nameOf s = nameOf t) (segments a) (segments b)) :
    columnName a = columnName b := by
  have hnames : (segments a).map nameOf = (segments b).map nameOf := by
    rwa [← List.forall₂_eq_eq_eq, List.forall₂_map_left_iff, List.forall₂_map_right_iff]
  rw [columnName, columnName, ← List.getLast?_map, ← List.getLast?_map, hnames]

/-- A reference that is written and the one given are read alike. -/
theorem WritesNames.readAlike {form : String → String} (hform : WritesNames form)
    (reference : String) : ReadAlike (write form reference) reference := by
  have hsegments : List.Forall₂ (fun s t => nameOf s = nameOf t)
      (Reference.segments (write form reference)) (Reference.segments reference) := by
    rw [hform.segments_write, List.forall₂_map_left_iff, List.forall₂_same]
    exact fun segment _ => hform.nameOf_writeSegment segment
  exact ⟨hsegments, qualifier_eq_of_forall₂ hsegments, columnName_eq_of_forall₂ hsegments⟩

/-- The table that a reference points into can be read off its quoted form. -/
theorem qualifier_quoted (reference : String) :
    qualifier? (quoted reference) = qualifier? reference :=
  (writesNames_quoteIdentifier.readAlike reference).qualifier

/-- **Writing keeps the reading.** A reference may be written twice: what is in quotes stays as
    it is, and what has quotes where they are needed is written as the reference itself would
    be.  Either way it is read as the reference is read, also if the quotes of the reference
    are broken, segments are empty, or dots stand in quotes. -/
theorem written_readAlike (reference : String) :
    quoted (quoted reference) = quoted reference ∧
      escaped (escaped reference) = escaped reference ∧
      quoted (escaped reference) = quoted reference ∧
      escaped (quoted reference) = quoted reference ∧
      ReadAlike (quoted reference) reference ∧ ReadAlike (escaped reference) reference := by
  have hescaped (name : String) (h : isPlainName name ≠ true) :
      escapeIdentifier name = quoteIdentifier name := if_neg h
  refine ⟨write_quoted _ reference, write_escaped hescaped reference,
    write_escaped (fun _ _ => rfl) reference, write_quoted _ reference, ?_, ?_⟩
  · exact writesNames_quoteIdentifier.readAlike reference
  · exact writesNames_escapeIdentifier.readAlike reference

example : segments "a\"b.c.d" = ["a\"b.c.d"] ∧
    segments "\"a\".\"\"b\"." = ["\"a\"", "\"\"b\"."] := by
  decide +kernel

/-! ### Paths of names -/

/-- The reference of a path of names, each in quotes. -/
def ofNames (names : List String) : String := joined "." (names.map quoteIdentifier)

/-- A path is cut into the quoted forms of its names. -/
theorem segments_ofNames {names : List String} (h : names ≠ []) :
    segments (ofNames names) = names.map quoteIdentifier := by
  refine segments_joined (by simp [h]) fun text htext => ?_
  obtain ⟨name, -, rfl⟩ := List.mem_map.mp htext
  exact closed_quoteIdentifier name

/-- A path stands as it is, however names are written. -/
theorem write_ofNames {names : List String} (h : names ≠ []) (form : String → String) :
    write form (ofNames names) = ofNames names := by
  rw [write, segments_ofNames h, List.map_map, ofNames]
  refine congrArg _ (List.map_congr_left fun name _ => ?_)
  exact writeSegment_verbatim (verbatim_quoteIdentifier name) form

/-- **Paths are read back.** Any names, at least one, make up a reference that is cut into their
    quoted forms, denotes these names one by one, and stands in SQL as it is.  With two names
    or more it points into the table of the first one, if that is not empty.  And whatever a
    reference is, its segments make it up again. -/
theorem path_readBack :
    (∀ names : List String, names ≠ [] →
      segments (ofNames names) = names.map quoteIdentifier ∧
        (segments (ofNames names)).map nameOf = names ∧
        quoted (ofNames names) = ofNames names ∧ escaped (ofNames names) = ofNames names ∧
        ∀ first second others, names = first :: second :: others → first ≠ "" →
          qualifier? (ofNames names) = some first) ∧
      ∀ reference, joined "." (segments reference) = reference := by
  refine ⟨fun names h => ?_, joined_segments⟩
  have hsegments := segments_ofNames h
  refine ⟨hsegments, ?_, write_ofNames h _, write_ofNames h _, ?_⟩
  · rw [hsegments, List.map_map]
    exact List.map_id'' nameOf_quoteIdentifier names
  · rintro first second others rfl hfirst
    rw [qualifier?, hsegments]
    simp only [List.map_cons, nameOf_quoteIdentifier, if_neg hfirst]

/-- A path with dots, quotes and an empty name. -/
theorem path_readBack_quotes :
    let names := ["a.\"b\"", "", "\"\".", "*"]
    let reference := "\"a.\"\"b\"\"\".\"\".\"\"\"\"\".\".\"*\""
    ofNames names = reference ∧ segments reference = names.map quoteIdentifier ∧
      (segments reference).map nameOf = names ∧ quoted reference = reference ∧
      escaped reference = reference ∧ qualifier? reference = some "a.\"b\"" := by
  intro names reference
  have hreference : ofNames names = reference := by decide +kernel
  obtain ⟨hsegments, hnames, hquoted, hescaped, hqualifier⟩ :=
    path_readBack.1 names (List.cons_ne_nil _ _)
  -- the names are read from the one reference they are written as
  rw [hreference] at hsegments hnames hquoted hescaped hqualifier
  exact ⟨hreference, hsegments, hnames, hquoted, hescaped, hqualifier _ _ _ rfl (by decide)⟩

end RowPolicy.Reference
