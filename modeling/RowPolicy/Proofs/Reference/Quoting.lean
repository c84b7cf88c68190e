import RowPolicy.Proofs.Reference.Segments

namespace RowPolicy

/-!
# Segments that are quoted names

A segment that is a quoted name stands as it is, so the test for it has to be exact: a text with
a quote of its own in it would end the name early.  Three tests agree.  A segment can be read to
its end; it can be compared with what names are written as; or the pairs of quotes between its
ends are taken out, from left to right, and no quote may be left.

* `Quoted.replacePairs` — a text with something in place of each pair of marks;
* `Quoted.doubled_replacePairs`, `Quoted.replacePairs_doubled` — where no mark is left, pairs are
  doubled marks;
* `Quoted.Paired`, `Quoted.paired_iff` — texts between marks in which the marks come in pairs;
* `Reference.kept_segment` — which segments are kept, what they denote, and how all others are
  written.
-/

/-! ### Pairs of marks -/

namespace Quoted

/-- A text with `new` in place of each two marks in a row.  Pairs are found from the left and do
    not overlap, so of three marks the first two are a pair. -/
def replacePairs (mark : Char) (new : List Char) : List Char → List Char
  | [] => []
  | [c] => [c]
  | c :: d :: s =>
    if c = mark ∧ d = mark then new ++ replacePairs mark new s
    else c :: replacePairs mark new (d :: s)

/-- A text between two marks in which nothing but pairs of marks stands between the ends, as far
    as marks go. -/
structure Paired (mark : Char) (s : List Char) : Prop where
  two_le_length : 2 ≤ s.length
  head_eq : s.head? = some mark
  last_eq : s.getLast? = some mark
  not_mem : mark ∉ replacePairs mark [] s.tail.dropLast

section

variable {mark : Char} {new : List Char}

/-- A character other than the mark is no part of a pair. -/
theorem replacePairs_cons_of_ne {c : Char} (hc : c ≠ mark) (s : List Char) :
    replacePairs mark new (c :: s) = c :: replacePairs mark new s := by
  cases s with
  | nil => rfl
  | cons d s =>
    rw [replacePairs, if_neg]
    rintro ⟨rfl, -⟩
    exact hc rfl

/-- In a text with doubled marks the pairs are the marks of the text. -/
theorem replacePairs_doubled (s : List Char) :
    replacePairs mark new (doubled mark s) = s.flatMap fun c => if c = mark then new else [c] := by
  induction s with
  | nil => rfl
  | cons c s ih =>
    rw [doubled, List.flatMap_cons]
    by_cases hc : c = mark
    · rw [if_pos hc, if_pos hc, replacePairs, if_pos ⟨hc, hc⟩, ih]
    · rw [if_neg hc, if_neg hc, replacePairs_cons_of_ne hc, ih, List.singleton_append]

/-- Where no mark is left without its pairs, a text is what doubling makes of it. -/
theorem doubled_replacePairs {s : List Char} (h : mark ∉ replacePairs mark [] s) :
    doubled mark (replacePairs mark [mark] s) = s := by
  induction s using replacePairs.induct mark with
  | case1 => rfl
  | case2 c =>
    -- a last character by itself is no mark, as no mark is left over
    have hc : ¬ c = mark := by
      rintro rfl
      exact h List.mem_cons_self
    rw [replacePairs, doubled, if_neg hc, doubled]
  | case3 c d s hpair ih =>
    obtain ⟨rfl, rfl⟩ := hpair
    rw [replacePairs, if_pos ⟨rfl, rfl⟩, List.nil_append] at h
    rw [replacePairs, if_pos ⟨rfl, rfl⟩, List.singleton_append, doubled, if_pos rfl, ih h]
  | case4 c d s hpair ih =>
    -- no pair, so the first character is no mark
    rw [replacePairs, if_neg hpair, List.mem_cons, not_or] at h
    rw [replacePairs, if_neg hpair, doubled, if_neg (Ne.symm h.1), ih h.2]

/-- Marks in pairs between two marks are what `write` makes. -/
theorem paired_iff {s : List Char} : Paired mark s ↔ ∃ t, s = write mark t := by
  constructor
  · rintro ⟨hlength, hhead, hlast, hinner⟩
    -- the first character is the mark in front, and the last one the mark behind
    obtain ⟨c, rest, rfl⟩ := List.exists_cons_of_length_pos (show 0 < s.length by omega)
    have hne : rest ≠ [] := by
      rintro rfl
      simp at hlength
    obtain rfl : c = mark := Option.some.inj hhead
    rw [List.getLast?_cons_of_ne_nil hne] at hlast
    refine ⟨replacePairs c [c] rest.dropLast, ?_⟩
    show c :: rest = c :: (doubled c (replacePairs c [c] rest.dropLast) ++ [c])
    rw [doubled_replacePairs (show c ∉ replacePairs c [] rest.dropLast from hinner),
      List.dropLast_append_getLast? c hlast]
  · rintro ⟨t, rfl⟩
    have hlast : (write mark t).getLast? = some mark := by
      rw [write, ← List.cons_append]
      exact List.getLast?_concat
    -- within the marks, every mark was doubled, so taking out the pairs leaves none
    refine ⟨by simp [write], rfl, hlast, ?_⟩
    rw [write, List.tail_cons, List.dropLast_concat, replacePairs_doubled, List.mem_flatMap]
    rintro ⟨c, -, hc⟩
    by_cases hmark : c = mark
    · rw [if_pos hmark] at hc
      cases hc
    · rw [if_neg hmark, List.mem_singleton] at hc
      exact hmark hc.symm

/-- Between the ends of what is written, the pairs stand for the marks of the text. -/
theorem replacePairs_write (s : List Char) :
    replacePairs mark [mark] (write mark s).tail.dropLast = s := by
  have hsame : (fun c => if c = mark then [mark] else [c]) = fun c => [c] := by
    funext c
    by_cases hc : c = mark
    · rw [if_pos hc, hc]
    · rw [if_neg hc]
  rw [write, List.tail_cons, List.dropLast_concat, replacePairs_doubled, hsame]
  exact List.flatMap_singleton' s

end

instance (mark : Char) (s : List Char) : Decidable (Paired mark s) :=
  decidable_of_iff (2 ≤ s.length ∧ s.head? = some mark ∧ s.getLast? = some mark ∧
      mark ∉ replacePairs mark [] s.tail.dropLast)
    ⟨fun ⟨hlength, hhead, hlast, hinner⟩ => ⟨hlength, hhead, hlast, hinner⟩,
      fun h => ⟨h.two_le_length, h.head_eq, h.last_eq, h.not_mem⟩⟩

example : Paired '"' ['"', '"', '"', '"'] ∧ ¬ Paired '"' ['"', '"', '"'] := by decide

end Quoted

/-! ### Segments -/

namespace Reference

/-- What can be read as a quoted name is written as one. -/
theorem isSome_quotedName_iff {segment : String} :
    (quotedName? segment).isSome ↔ ∃ name, segment = quoteIdentifier name := by
  rw [Option.isSome_iff_exists]
  constructor
  · rintro ⟨name, hname⟩
    exact ⟨name, Sql.eq_quoteIdentifier hname⟩
  · rintro ⟨name, rfl⟩
    exact ⟨name, quotedName_quoteIdentifier name⟩

/-- So is a text in which quotes come in pairs. -/
theorem paired_iff_isSome_quotedName {segment : String} :
    Quoted.Paired '"' segment.toList ↔ (quotedName? segment).isSome := by
  rw [isSome_quotedName_iff, Quoted.paired_iff]
  constructor
  · rintro ⟨name, hname⟩
    exact ⟨String.ofList name, by simp [quoteIdentifier, ← hname]⟩
  · rintro ⟨name, rfl⟩
    exact ⟨name.toList, String.toList_ofList⟩

/-- Quotes make a text longer. -/
theorem quoteIdentifier_ne_self (name : String) : quoteIdentifier name ≠ name := by
  intro h
  have hlength := congrArg String.length h
  rw [quoteIdentifier, String.length_ofList, Quoted.write, List.length_cons, List.length_append,
    List.length_singleton] at hlength
  have hdoubled : name.toList.length ≤ (Quoted.doubled '"' name.toList).length :=
    Quoted.length_le_length_doubled '"' name.toList
  rw [String.length_toList] at hdoubled
  omega

/-- **Kept segments.** A segment is a quoted name if its quotes come in pairs, and just then some
    name is written like it: one name alone, which it denotes, and which is what stands between
    its ends with one quote for each pair.  Any other segment denotes itself.  In a reference
    that is written in quotes, segments stand in their order: a quoted name and `*` as they are,
    and any other segment as the quoted name that denotes it, which is never the segment itself.
    So whatever a name is, it is denoted by what it is written as. -/
theorem kept_segment :
    (∀ segment : String,
      ((quotedName? segment).isSome ↔ Quoted.Paired '"' segment.toList) ∧
      ((quotedName? segment).isSome ↔ ∃ name, segment = quoteIdentifier name) ∧
      (∀ name, segment = quoteIdentifier name →
        (∀ other, segment = quoteIdentifier other → other = name) ∧
        nameOf segment = name ∧
        name.toList = Quoted.replacePairs '"' ['"'] segment.toList.tail.dropLast) ∧
      ((∀ name, segment ≠ quoteIdentifier name) →
        nameOf segment = segment ∧
        (segment ≠ "*" → writeSegment quoteIdentifier segment = quoteIdentifier segment)) ∧
      (writeSegment quoteIdentifier segment = segment ↔
        segment = "*" ∨ ∃ name, segment = quoteIdentifier name)) ∧
    (∀ name, nameOf (quoteIdentifier name) = name) ∧
    ∀ reference, quoted reference =
      joined "." ((segments reference).map (writeSegment quoteIdentifier)) := by
  refine ⟨fun segment => ⟨paired_iff_isSome_quotedName.symm, isSome_quotedName_iff, ?_, ?_, ?_⟩,
    nameOf_quoteIdentifier, fun reference => rfl⟩
  -- quotes around any name are the quotes around this one
  · rintro name rfl
    refine ⟨fun other hother => (quoteIdentifier_injective hother).symm,
      nameOf_quoteIdentifier name, ?_⟩
    rw [quoteIdentifier, String.toList_ofList, Quoted.replacePairs_write]
  · intro hname
    have hnone : quotedName? segment = none := by
      rw [← Option.not_isSome_iff_eq_none, isSome_quotedName_iff]
      rintro ⟨name, h⟩
      exact hname name h
    refine ⟨by rw [nameOf, hnone, Option.getD_none], fun hstar => ?_⟩
    apply writeSegment_form
    rintro (h | h)
    · exact hstar h
    · rw [hnone] at h
      cases h
  · rw [← isSome_quotedName_iff]
    constructor
    -- a segment that is written as it is has been quoted already, or is `*`
    · intro hself
      by_contra hverbatim
      rw [writeSegment_form hverbatim] at hself
      exact quoteIdentifier_ne_self segment hself
    · intro hverbatim
      exact writeSegment_verbatim hverbatim quoteIdentifier

/-- Four quotes are the name that is one quote; three are a segment that denotes itself, and so
    is a text with a quote of its own between the ends. -/
theorem kept_segment_quotes :
    nameOf "\"\"\"\"" = "\"" ∧ writeSegment quoteIdentifier "\"\"\"\"" = "\"\"\"\"" ∧
      nameOf "\"\"\"" = "\"\"\"" ∧
      writeSegment quoteIdentifier "\"x\" OR 1=1 --\"" = "\"\"\"x\"\" OR 1=1 --\"\"\"" ∧
      writeSegment quoteIdentifier "*" = "*" := by
  obtain ⟨hsegment, -, -⟩ := kept_segment
  -- what is not paired is not in quotes
  have hnot {segment : String} (h : ¬ Quoted.Paired '"' segment.toList) :
      ∀ name, segment ≠ quoteIdentifier name := by
    rintro name rfl
    exact h ((hsegment _).1.mp ((hsegment _).2.1.mpr ⟨name, rfl⟩))
  have hfour : "\"\"\"\"" = quoteIdentifier "\"" := by decide
  refine ⟨((hsegment _).2.2.1 _ hfour).2.1, (hsegment _).2.2.2.2.mpr (.inr ⟨_, hfour⟩),
    ((hsegment _).2.2.2.1 (hnot (by decide))).1, ?_, (hsegment _).2.2.2.2.mpr (.inl rfl)⟩
  rw [((hsegment _).2.2.2.1 (hnot (by decide))).2 (by decide)]
  decide

end Reference

end RowPolicy
