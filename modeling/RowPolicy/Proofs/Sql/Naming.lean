import RowPolicy.Proofs.Sql.Literal

namespace RowPolicy

/-!
# What written names stand for

A name in quotes stands for what is between them, letter by letter.  A name without quotes
stands for itself in lower case.  So a name is taken as it was given if it is written in
quotes, or if it has no capitals:

* `Sql.folded`, `Sql.Name.denotes?` — the name that a written name stands for;
* `Sql.Unfolded` — a name that is not changed when quotes are left out where possible;
* `Sql.denotes_identifierName`, `Sql.denotes_escaped_segment` — when identifiers and the
  segments of references stand for what they were given as;
* `Sql.TableName.seenAs?` — the name under which a query sees a table;
* `Sql.seenAs_escapedPath` — when that is the reference that the table was given as.
-/

/-! ### Segments of a reference -/

namespace Reference

/-- Behind the first piece, each piece has a dot in front of it. -/
theorem cut_flatten (quoted : Bool) (s : List Char) :
    (cut quoted s).1 ++ (cut quoted s).2.flatMap ('.' :: ·) = s := by
  induction s generalizing quoted with
  | nil => rfl
  | cons c s ih =>
    rw [cut]
    -- a dot outside quotes begins the next segment
    by_cases hdot : c = '.' ∧ quoted = false
    · rw [if_pos hdot]
      show [] ++ ('.' :: (cut false s).1 ++ (cut false s).2.flatMap ('.' :: ·)) = c :: s
      rw [List.nil_append, List.cons_append, ih false, hdot.1]
    -- any other character belongs to the first one
    · rw [if_neg hdot]
      show c :: (cut _ s).1 ++ (cut _ s).2.flatMap ('.' :: ·) = c :: s
      rw [List.cons_append, ih]

/-- A reference has a segment, if an empty one. -/
theorem segments_ne_nil (reference : String) : segments reference ≠ [] := by
  rw [segments]
  exact List.cons_ne_nil _ _

/-- A reference is its only segment, or longer than each segment behind the first. -/
theorem segments_cases (reference : String) :
    segments reference = [reference] ∨
      ∃ first rest, segments reference = first :: rest ∧ rest ≠ [] ∧
        ∀ segment ∈ rest, segment.length < reference.length := by
  have hflat := cut_flatten false reference.toList
  cases hrest : (cut false reference.toList).2 with
  | nil =>
    left
    rw [hrest, List.flatMap_nil, List.append_nil] at hflat
    show ((cut false reference.toList).1 :: (cut false reference.toList).2).map String.ofList = _
    rw [hrest, hflat, List.map_singleton, String.ofList_toList]
  | cons next others =>
    right
    refine ⟨_, _, rfl, by simp [hrest], fun segment hsegment => ?_⟩
    obtain ⟨piece, hpiece, rfl⟩ := List.mem_map.mp hsegment
    -- the piece and its dot are part of the reference
    obtain ⟨front, back, hsplit⟩ := List.append_of_mem hpiece
    have hlength := congrArg List.length hflat
    rw [hsplit] at hlength
    simp only [List.flatMap_append, List.flatMap_cons, List.length_append, List.length_cons,
      String.length_toList] at hlength
    rw [String.length_ofList]
    omega

end Reference

namespace Sql

/-! ### Names -/

/-- A name in lower case. -/
def folded (s : String) : String := String.ofList (s.toList.map Char.toLower)

/-- The name that a written name stands for.  There is no empty name. -/
def Name.denotes? : Name → Option String
  | bare s => some (folded s)
  | quoted s => if s = "" then none else some s
  | star => none

/-- A name that has no capitals, or needs quotes to be written. -/
def Unfolded (s : String) : Prop := isPlainName s = true → ∀ c ∈ s.toList, c.isUpper = false

instance (s : String) : Decidable (Unfolded s) :=
  decidable_of_iff (isPlainName s = true → s.toList.all (fun c => !c.isUpper) = true)
    (by simp [Unfolded])

/-- A character is its own small letter unless it is a capital. -/
theorem toLower_eq_self {c : Char} : c.toLower = c ↔ c.isUpper = false := by
  constructor
  · intro h
    by_contra hupper
    have hrange : c.val ≥ 'A'.val ∧ c.val ≤ 'Z'.val :=
      of_decide_eq_true (Bool.not_eq_false _ ▸ hupper)
    -- a capital is moved by the distance of the two alphabets
    have hmoved : c.toLower.val = c.val + ('a'.val - 'A'.val) := congrArg Char.val (dif_pos hrange)
    rw [h] at hmoved
    simp at hmoved
  · intro h
    have hrange : ¬ (c.val ≥ 'A'.val ∧ c.val ≤ 'Z'.val) := of_decide_eq_false h
    exact dif_neg hrange

/-- A name is folded into itself exactly if it has no capitals. -/
theorem folded_eq_self {s : String} : folded s = s ↔ ∀ c ∈ s.toList, c.isUpper = false := by
  rw [folded, ← String.toList_inj, String.toList_ofList]
  induction s.toList with
  | nil => simp
  | cons c cs ih => rw [List.map_cons, List.cons.injEq, ih, List.forall_mem_cons, toLower_eq_self]

/-- An identifier is read as it was given unless it is empty or has its capitals folded. -/
theorem denotes_identifierName {s : String} :
    (identifierName s).denotes? = some s ↔ s ≠ "" ∧ Unfolded s := by
  unfold identifierName
  by_cases hplain : isPlainName s = true
  -- a plain name is folded, and any other one is quoted
  · have hne : s ≠ "" := by
      rintro rfl
      exact absurd hplain (by decide)
    rw [if_pos hplain, Name.denotes?, Option.some.injEq, folded_eq_self, and_iff_right hne]
    exact ⟨fun hlower _ => hlower, fun hunfolded => hunfolded hplain⟩
  · have hunfolded : Unfolded s := fun h => absurd h hplain
    rw [if_neg hplain, Name.denotes?, and_iff_left hunfolded]
    by_cases hempty : s = "" <;> simp [hempty]

/-- A name is as long as what it stands for. -/
theorem length_denotes_identifierName {s n : String}
    (h : (identifierName s).denotes? = some n) : n.length = s.length := by
  unfold identifierName at h
  by_cases hplain : isPlainName s = true
  · rw [if_pos hplain, Name.denotes?, Option.some.injEq] at h
    rw [← h, folded, String.length_ofList, List.length_map, String.length_toList]
  · rw [if_neg hplain, Name.denotes?] at h
    by_cases hempty : s = ""
    · simp [hempty] at h
    · rw [if_neg hempty, Option.some.injEq] at h
      rw [h]

/-! ### Segments as names -/

/-- A name is shorter than the segment it is quoted in. -/
theorem length_lt_of_quotedName {segment name : String}
    (h : Reference.quotedName? segment = some name) : name.length < segment.length := by
  have hlength := Quoted.length_le_length_doubled '"' name.toList
  rw [eq_quoteIdentifier h, quoteIdentifier, String.length_ofList, Quoted.write, List.length_cons,
    List.length_append, ← String.length_toList]
  omega

/-- A segment in quotes is not plain. -/
theorem unfolded_of_quotedName {segment name : String}
    (h : Reference.quotedName? segment = some name) : Unfolded segment := by
  intro hplain
  rw [isPlainName, Bool.and_eq_true, List.all_eq_true] at hplain
  have hmark : '"' ∈ segment.toList := by
    rw [eq_quoteIdentifier h, quoteIdentifier, String.toList_ofList, Quoted.write]
    exact List.mem_cons_self
  exact absurd (hplain.2 '"' hmark) (by decide)

/-- The star is written as such in every form. -/
theorem segmentName_star (form : String → Name) : segmentName form "*" = .star := if_pos rfl

/-- A segment in quotes is a quoted name in every form. -/
theorem segmentName_of_quotedName {segment name : String}
    (h : Reference.quotedName? segment = some name) (form : String → Name) :
    segmentName form segment = .quoted name := by
  have hstar : segment ≠ "*" := by
    rintro rfl
    cases h
  rw [segmentName, if_neg hstar, h]

/-- Every other segment is written in the form. -/
theorem segmentName_of_none {segment : String} (hstar : segment ≠ "*")
    (h : Reference.quotedName? segment = none) (form : String → Name) :
    segmentName form segment = form segment := by
  rw [segmentName, if_neg hstar, h]

/-- A quoted name stands for itself, unless it is empty. -/
theorem denotes_quoted {s n : String} :
    (Name.quoted s).denotes? = some n ↔ s ≠ "" ∧ s = n := by
  rw [Name.denotes?]
  by_cases hempty : s = "" <;> simp [hempty]

/-- A segment with quotes where they are needed is read as its name unless it has its capitals
    folded. -/
theorem denotes_escaped_segment {segment : String} :
    (segmentName identifierName segment).denotes? = some (Reference.nameOf segment) ↔
      segment ≠ "*" ∧ Reference.nameOf segment ≠ "" ∧ Unfolded segment := by
  by_cases hstar : segment = "*"
  · simp [hstar, segmentName_star, Name.denotes?]
  · rw [and_iff_right hstar, Reference.nameOf]
    cases hname : Reference.quotedName? segment with
    | some name =>
      rw [segmentName_of_quotedName hname, denotes_quoted, Option.getD_some, and_iff_left rfl,
        and_iff_left (unfolded_of_quotedName hname)]
    | none => rw [segmentName_of_none hstar hname, Option.getD_none, denotes_identifierName]

/-- A segment that is quoted is read as its name. -/
theorem denotes_quoted_segment {segment name : String} :
    (segmentName .quoted segment).denotes? = some name ↔
      segment ≠ "*" ∧ name ≠ "" ∧ Reference.nameOf segment = name := by
  by_cases hstar : segment = "*"
  · simp [hstar, segmentName_star, Name.denotes?]
  -- in quotes already or quoted now, it is the name of the segment
  · have hread : segmentName .quoted segment = .quoted (Reference.nameOf segment) := by
      rw [Reference.nameOf]
      cases hname : Reference.quotedName? segment with
      | some content => rw [segmentName_of_quotedName hname, Option.getD_some]
      | none => rw [segmentName_of_none hstar hname, Option.getD_none]
    rw [and_iff_right hstar, hread, denotes_quoted]
    constructor
    · rintro ⟨hne, rfl⟩
      exact ⟨hne, rfl⟩
    · rintro ⟨hne, rfl⟩
      exact ⟨hne, rfl⟩

/-- A segment is not read as a longer name, and as a shorter one if it is in quotes. -/
theorem length_denotes_segment {segment name : String}
    (h : (segmentName identifierName segment).denotes? = some name) :
    name.length ≤ segment.length ∧
      (Reference.quotedName? segment ≠ none → name.length < segment.length) := by
  have hstar : segment ≠ "*" := by
    rintro rfl
    rw [segmentName_star] at h
    cases h
  cases hname : Reference.quotedName? segment with
  | some content =>
    rw [segmentName_of_quotedName hname, denotes_quoted] at h
    obtain ⟨-, rfl⟩ := h
    have hshorter := length_lt_of_quotedName hname
    exact ⟨Nat.le_of_lt hshorter, fun _ => hshorter⟩
  | none =>
    rw [segmentName_of_none hstar hname] at h
    exact ⟨Nat.le_of_eq (length_denotes_identifierName h), fun hquoted => absurd rfl hquoted⟩

/-! ### Tables and columns -/

/-- The last name of a path. -/
def lastOf? (path : List Name) : Option String := path.getLast?.bind Name.denotes?

namespace TableName

/-- The path by which a query can refer to a table: its alias hides what it is called. -/
def visiblePath (t : TableName) : List Name :=
  match t.aliasName with
  | some a => [a]
  | none => t.path

/-- The name under which a query sees a table: its alias if it has one, else the last name of
    its path. -/
def seenAs? (t : TableName) : Option String := lastOf? t.visiblePath

end TableName

/-- The name of the table that the path of a column begins with, if there is one. -/
def tableOf? : List Name → Option String
  | n :: _ :: _ => n.denotes?
  | _ => none

/-- The table of a quoted reference is its qualifier. -/
theorem tableOf_quotedPath {reference name : String}
    (h : tableOf? (quotedPath reference) = some name) :
    Reference.qualifier? reference = some name := by
  unfold quotedPath pathWith at h
  unfold Reference.qualifier?
  cases hsegments : Reference.segments reference with
  | nil => simp [hsegments, tableOf?] at h
  | cons first rest =>
    cases rest with
    -- without a second segment there is no qualifier, on either side
    | nil => simp [hsegments, tableOf?] at h
    | cons next others =>
      rw [hsegments, List.map_cons, List.map_cons, tableOf?, denotes_quoted_segment] at h
      obtain ⟨-, hne, rfl⟩ := h
      exact if_neg hne

/-- A table without an alias is seen as what it was given as if that is one name, not in
    quotes, that is not empty and keeps its letters. -/
theorem seenAs_escapedPath {table : String} :
    TableName.seenAs? ⟨escapedPath table, none⟩ = some table ↔
      Reference.segments table = [table] ∧ Reference.quotedName? table = none ∧
        table ≠ "*" ∧ table ≠ "" ∧ Unfolded table := by
  show ((Reference.segments table).map (segmentName identifierName)).getLast?.bind Name.denotes? =
    some table ↔ _
  rcases Reference.segments_cases table with hone | ⟨first, rest, hsegments, hrest, hshorter⟩
  · rw [hone, and_iff_right rfl, List.map_singleton, List.getLast?_singleton, Option.bind_some]
    cases hname : Reference.quotedName? table with
    | some content =>
      -- what stands in the quotes is shorter than the table
      have hne : (segmentName identifierName table).denotes? ≠ some table := fun h =>
        Nat.lt_irrefl _ ((length_denotes_segment h).2 (by simp [hname]))
      simp [hne]
    | none =>
      have hread := @denotes_escaped_segment table
      rw [Reference.nameOf, hname, Option.getD_none] at hread
      rw [hread, and_iff_right rfl]
  · have hmany : Reference.segments table ≠ [table] := by
      rw [hsegments]
      intro h
      exact hrest (List.cons.inj h).2
    have hlast : rest.getLast hrest ∈ rest := List.getLast_mem hrest
    have hread : ((Reference.segments table).map (segmentName identifierName)).getLast? =
        some (segmentName identifierName (rest.getLast hrest)) := by
      rw [hsegments, List.getLast?_map, List.getLast?_cons, List.getLast?_eq_some_getLast hrest]
      rfl
    -- the last segment is shorter than the table, and so is its name
    have hne : (segmentName identifierName (rest.getLast hrest)).denotes? ≠ some table := fun h =>
      Nat.not_le_of_lt (hshorter _ hlast) (length_denotes_segment h).1
    rw [hread, Option.bind_some]
    simp [hne, hmany]

example : TableName.seenAs? ⟨escapedPath "public.Posts", none⟩ = some "posts" := by
  decide +kernel

end Sql

end RowPolicy
