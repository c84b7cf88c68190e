import RowPolicy.Proofs.Manifest.Script

namespace RowPolicy

/-!
# The comment line of a group

The description of a group is the one text of a caller that stands in SQL without quotes.  What
keeps it in its line is that no control character of it is written, wherever these stand and
however many there are in a row; nothing else of it is left out.

* `MaximalPieces`, `maximalPieces_iff` — the pieces of a text between its control characters;
* `isControl_joined`, `behindLine_comment` — a line that is made of them, and what is behind it;
* `PolicyGroup.sql_eq_error` — a group fails with the first of its policies that fails;
* `PolicyGroup.sql_described` — a group with a description, and the same group without it.
-/

/-! ### Pieces between control characters -/

/-- The longest pieces of a text without control characters, in order.  In front of the first
    piece and behind each piece stand control characters or nothing, and no piece is empty. -/
inductive MaximalPieces : List Char → List (List Char) → Prop
  | none {gap : List Char} (hgap : ∀ c ∈ gap, Text.isControl c = true) : MaximalPieces gap []
  | piece {gap piece rest : List Char} {pieces : List (List Char)}
      (hgap : ∀ c ∈ gap, Text.isControl c = true) (hne : piece ≠ [])
      (hpiece : ∀ c ∈ piece, Text.isControl c = false)
      (hend : ∀ c, rest.head? = some c → Text.isControl c = true)
      (hrest : MaximalPieces rest pieces) : MaximalPieces (gap ++ piece ++ rest) (piece :: pieces)

section

variable {c : Char} {s : List Char}

/-- A control character ends the piece in front of it. -/
theorem splitControl_control (hc : Text.isControl c = true) :
    splitControl (c :: s) = ([], (splitControl s).1 :: (splitControl s).2) := if_pos hc

/-- Any other character belongs to the first piece. -/
theorem splitControl_other (hc : Text.isControl c = false) :
    splitControl (c :: s) = (c :: (splitControl s).1, (splitControl s).2) :=
  if_neg (Bool.not_eq_true _ ▸ hc)

end

/-- The pieces of a text that are not empty, as they are cut. -/
def pieces (s : List Char) : List (List Char) :=
  ((splitControl s).1 :: (splitControl s).2).filter fun piece => !piece.isEmpty

/-- A description is cut into the pieces that are not empty. -/
theorem controlFree_eq (text : String) :
    controlFree text = (pieces text.toList).map String.ofList := rfl

section

variable {gap piece rest : List Char} {ps : List (List Char)}

/-- Control characters in front of a text are not in its pieces. -/
theorem pieces_gap (hgap : ∀ c ∈ gap, Text.isControl c = true) (s : List Char) :
    pieces (gap ++ s) = pieces s := by
  induction gap with
  | nil => rfl
  | cons c gap ih =>
    rw [List.forall_mem_cons] at hgap
    rw [← ih hgap.2, List.cons_append, pieces, splitControl_control hgap.1]
    rfl

/-- A piece without control characters stands in front of the first cut. -/
theorem splitControl_append (hpiece : ∀ c ∈ piece, Text.isControl c = false) (s : List Char) :
    splitControl (piece ++ s) = (piece ++ (splitControl s).1, (splitControl s).2) := by
  induction piece with
  | nil => rfl
  | cons c piece ih =>
    rw [List.forall_mem_cons] at hpiece
    rw [List.cons_append, splitControl_other hpiece.1, ih hpiece.2, List.cons_append]

/-- A text that ends or goes on with a control character is cut at its start. -/
theorem splitControl_fst_eq_nil (hend : ∀ c, rest.head? = some c → Text.isControl c = true) :
    (splitControl rest).1 = [] := by
  cases rest with
  | nil => rfl
  | cons c rest => rw [splitControl_control (hend c rfl)]

/-- A piece that ends at a control character or with the text is cut off whole. -/
theorem pieces_piece (hne : piece ≠ []) (hpiece : ∀ c ∈ piece, Text.isControl c = false)
    (hend : ∀ c, rest.head? = some c → Text.isControl c = true) :
    pieces (piece ++ rest) = piece :: pieces rest := by
  have hempty : (!piece.isEmpty) = true := by simpa using hne
  rw [pieces, pieces, splitControl_append hpiece, splitControl_fst_eq_nil hend, List.append_nil]
  show (piece :: (splitControl rest).2).filter _ = _
  rw [List.filter_cons, if_pos hempty]
  rfl

/-- The longest pieces are the ones cut, so there is only one way to cut. -/
theorem MaximalPieces.eq_pieces {s : List Char} (h : MaximalPieces s ps) : ps = pieces s := by
  induction h with
  | @none gap hgap =>
    have hall := pieces_gap hgap []
    rw [List.append_nil] at hall
    rw [hall]
    rfl
  | piece hgap hne hpiece hend _ ih =>
    rw [List.append_assoc, pieces_gap hgap, pieces_piece hne hpiece hend, ← ih]

/-- Control characters in front of a text leave its pieces as they are. -/
theorem MaximalPieces.behind {c : Char} (hc : Text.isControl c = true) {s : List Char}
    (h : MaximalPieces s ps) : MaximalPieces (c :: s) ps := by
  cases h with
  | none hgap => exact .none (List.forall_mem_cons.mpr ⟨hc, hgap⟩)
  | @piece gap piece rest pieces hgap hne hpiece hend hrest =>
    show MaximalPieces ((c :: gap) ++ piece ++ rest) _
    exact .piece (List.forall_mem_cons.mpr ⟨hc, hgap⟩) hne hpiece hend hrest

/-- A first piece in front of a text that is cut at its start counts if it is not empty. -/
theorem MaximalPieces.front {qs : List (List Char)}
    (hpiece : ∀ c ∈ piece, Text.isControl c = false)
    (hend : ∀ c, rest.head? = some c → Text.isControl c = true)
    (h : MaximalPieces rest (qs.filter fun q => !q.isEmpty)) :
    MaximalPieces (piece ++ rest) ((piece :: qs).filter fun q => !q.isEmpty) := by
  rw [List.filter_cons]
  by_cases hne : piece = []
  · rw [hne]
    exact h
  · rw [if_pos (by simpa using hne)]
    exact .piece (List.forall_mem_nil _) hne hpiece hend h

end

/-- A text is its first piece and a rest that is cut at its start, into the other pieces. -/
theorem exists_rest (s : List Char) :
    ∃ rest, s = (splitControl s).1 ++ rest ∧
      (∀ c ∈ (splitControl s).1, Text.isControl c = false) ∧
      (∀ c, rest.head? = some c → Text.isControl c = true) ∧
      MaximalPieces rest ((splitControl s).2.filter fun piece => !piece.isEmpty) := by
  induction s with
  | nil => exact ⟨[], rfl, List.forall_mem_nil _, by simp, .none (List.forall_mem_nil _)⟩
  | cons c s ih =>
    obtain ⟨rest, hs, hfirst, hend, hrest⟩ := ih
    cases hc : Text.isControl c with
    | false =>
      rw [splitControl_other hc]
      exact ⟨rest, congrArg (c :: ·) hs, List.forall_mem_cons.mpr ⟨hc, hfirst⟩, hend, hrest⟩
    | true =>
      -- a new cut: what was the first piece is now one of the others
      have hpieces := (hrest.front hfirst hend).behind hc
      rw [← hs] at hpieces
      rw [splitControl_control hc]
      exact ⟨c :: s, rfl, List.forall_mem_nil _, by simp [hc], hpieces⟩

/-- The longest pieces of a text are those that it is cut into. -/
theorem maximalPieces_iff {s : List Char} {ps : List (List Char)} :
    MaximalPieces s ps ↔ ps = pieces s := by
  constructor
  · exact MaximalPieces.eq_pieces
  · rintro rfl
    obtain ⟨rest, hs, hfirst, hend, hrest⟩ := exists_rest s
    have hpieces := hrest.front hfirst hend
    rwa [← hs] at hpieces

namespace MaximalPieces

variable {s : List Char} {ps : List (List Char)}

/-- The pieces hold all of a text but its control characters. -/
theorem flatten_eq (h : MaximalPieces s ps) :
    ps.flatten = s.filter fun c => !Text.isControl c := by
  -- the gaps vanish, and the pieces stay
  have hnone {gap : List Char} (hgap : ∀ c ∈ gap, Text.isControl c = true) :
      gap.filter (fun c => !Text.isControl c) = [] :=
    List.filter_eq_nil_iff.mpr fun c hc => by simp [hgap c hc]
  have hall {piece : List Char} (hpiece : ∀ c ∈ piece, Text.isControl c = false) :
      piece.filter (fun c => !Text.isControl c) = piece :=
    List.filter_eq_self.mpr fun c hc => by simp [hpiece c hc]
  induction h with
  | none hgap => rw [hnone hgap, List.flatten_nil]
  | piece hgap _ hpiece _ _ ih =>
    rw [List.filter_append, List.filter_append, hnone hgap, hall hpiece, List.nil_append,
      List.flatten_cons, ih]

/-- No piece has a control character. -/
theorem isControl_eq (h : MaximalPieces s ps) : ∀ p ∈ ps, ∀ c ∈ p, Text.isControl c = false := by
  induction h with
  | none => exact List.forall_mem_nil _
  | piece _ _ hpiece _ _ ih => exact List.forall_mem_cons.mpr ⟨hpiece, ih⟩

end MaximalPieces

/-! ### The line -/

/-- A line of pieces with blanks between them holds no control character, so it does not end
    early. -/
theorem isControl_joined {s : List Char} {ps : List (List Char)} (h : MaximalPieces s ps) :
    ∀ c ∈ (joined " " (ps.map String.ofList)).toList, Text.isControl c = false := by
  intro c hc
  rcases mem_joined hc with hblank | ⟨item, hitem, hc⟩
  · obtain rfl := List.mem_singleton.mp hblank
    decide
  · obtain ⟨p, hp, rfl⟩ := List.mem_map.mp hitem
    rw [String.toList_ofList] at hc
    exact h.isControl_eq p hp c hc

/-- What stands behind the first line of a text. -/
def behindLine (text : String) : String :=
  String.ofList ((text.toList.dropWhile (· != '\n')).drop 1)

/-- A line ends at its line break if it holds no control character. -/
theorem behindLine_comment {line : String} (h : ∀ c ∈ line.toList, Text.isControl c = false)
    (text : String) : behindLine ("-- " ++ line ++ "\n" ++ text) = text := by
  have hline : ∀ c ∈ ("-- " ++ line).toList, (c != '\n') = true := by
    rw [String.toList_append, List.forall_mem_append]
    refine ⟨List.all_eq_true.mp rfl, fun c hc => ?_⟩
    rw [bne_iff_ne]
    rintro rfl
    exact absurd (h _ hc) (by decide)
  rw [behindLine, String.toList_append, String.toList_append, List.append_assoc,
    List.dropWhile_append_of_pos hline]
  exact String.ofList_toList

/-! ### Groups -/

namespace PolicyGroup

/-- A group fails with the first of its policies that fails. -/
theorem sql_eq_error {group : PolicyGroup} {extras : Extras} {fault : Fault} :
    group.sql extras = .error fault ↔
      ∃ before policy after, group.policies = before ++ policy :: after ∧
        (∀ p ∈ before, ∃ text, p.sql extras = .ok text) ∧ policy.sql extras = .error fault := by
  have hpure (text : String) : (pure text : Except Fault String) ≠ .error fault :=
    fun h => nomatch h
  rw [sql, ← mapM_eq_error, bind_eq_error]
  simp only [hpure, and_false, exists_false, or_false]

/-- **A description stays in its line.** A group fails exactly if it fails without its description,
    and for the same reason, that of the first policy that fails.  If it does not fail, a
    description adds one line in front of the text: a comment mark and the pieces of the
    description between its control characters, all of them, in order, with a blank between
    neighbours.  The line holds no control character, and so it ends where the text begins that
    the group has without its description. -/
theorem sql_described (group : PolicyGroup) (extras : Extras) :
    let bare : PolicyGroup := { group with description := none }
    (∀ fault, group.sql extras = .error fault ↔ bare.sql extras = .error fault) ∧
      (∀ fault, bare.sql extras = .error fault ↔
        ∃ before policy after, group.policies = before ++ policy :: after ∧
          (∀ p ∈ before, ∃ text, p.sql extras = .ok text) ∧ policy.sql extras = .error fault) ∧
      ∀ sql, bare.sql extras = .ok sql →
        (group.description = none → group.sql extras = .ok sql) ∧
        ∀ description, group.description = some description →
          ∃ ps line, (∀ qs, MaximalPieces description.toList qs ↔ qs = ps) ∧
            ps.flatten = (description.toList.filter fun c => !Text.isControl c) ∧
            line = joined " " (ps.map String.ofList) ∧
            (∀ c ∈ line.toList, Text.isControl c = false) ∧
            group.sql extras = .ok ("-- " ++ line ++ "\n" ++ sql) ∧
            behindLine ("-- " ++ line ++ "\n" ++ sql) = sql := by
  intro bare
  refine ⟨fun fault => ?_, fun fault => sql_eq_error, fun sql hsql => ?_⟩
  -- the line in front does not decide about failure
  · rw [sql_eq_error, sql_eq_error]
  · obtain ⟨hclause, rfl⟩ := sql_eq_ok.mp hsql
    have hbare : bare.text extras =
        joined statementSeparator (group.policies.map (·.text extras)) := String.empty_append
    have hgroup : group.sql extras = .ok (group.text extras) := sql_eq_ok.mpr ⟨hclause, rfl⟩
    refine ⟨fun hnone => ?_, fun description hdescription => ?_⟩
    · rw [hgroup, text, hnone, hbare]
      exact congrArg Except.ok String.empty_append
    -- the pieces cut are the only longest ones, so the line is made of them
    · have hpieces := maximalPieces_iff.mpr (Eq.refl (pieces description.toList))
      have hline := isControl_joined hpieces
      refine ⟨_, _, fun qs => maximalPieces_iff, hpieces.flatten_eq, rfl, hline, ?_,
        behindLine_comment hline _⟩
      rw [hgroup, text, hdescription, hbare, Option.map_some, Option.getD_some, commentLine,
        controlFree_eq]

/-- Line breaks of several kinds in a description, at its ends too, and a predicate of raw SQL. -/
theorem sql_described_breaks :
    let policy : Policy :=
      { Policy.start "p" "t" .select with usingExpr := some (.compare "a" .eq (.raw "now()")) }
    let group : PolicyGroup :=
      ⟨"g", [policy], some "\r\nharmless\rDROP TABLE users; --\r\n\tmore\u0085"⟩
    let sql := "CREATE POLICY \"p\" ON \"t\" FOR SELECT USING (\"a\" = now())"
    let line := "harmless DROP TABLE users; -- more"
    group.sql {} = .ok ("-- " ++ line ++ "\n" ++ sql) ∧
      behindLine ("-- " ++ line ++ "\n" ++ sql) = sql := by
  intro policy group sql line
  -- the text below the comment, with its clause and nothing in front
  have hbare : PolicyGroup.sql { group with description := none } {} = .ok sql := by
    decide +kernel
  obtain ⟨ps, joinedLine, hps, -, hline, -, hsql, hbehind⟩ :=
    ((sql_described group {}).2.2 sql hbare).2 _ rfl
  have hpieces := (hps _).mp (maximalPieces_iff.mpr rfl)
  have hjoined : joinedLine = line := by
    rw [hline, ← hpieces]
    decide +kernel
  rw [hjoined] at hsql hbehind
  exact ⟨hsql, hbehind⟩

end PolicyGroup

end RowPolicy
