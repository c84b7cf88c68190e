import RowPolicy.Proofs.Sql.Expr

namespace RowPolicy.Sql

open Piece (word op listed)

/-!
# Columns that a text shows

Which columns an expression reads can be seen from its pieces alone.  A column is a path of
names in quotes; a path in front of parentheses is a function, and parentheses that begin with
`SELECT` hold a query, whose columns are its own:

* `columnAt?`, `isQuery` — a column at the start of some pieces, and the pieces of a query;
* `columnsIn` — the columns in pieces, from left to right, outside the queries within them;
* `Shows` — pieces with their columns, in front of whatever does not go on with them;
* `Shows.separated`, `shows_call`, `columnsWithin_listed`, ... — the columns of each form, from
  those of its parts.
-/

/-! ### Reading columns -/

/-- The name that an atom is, if it is in quotes or the `*`. -/
def Atom.quotedName? : Atom → Option Name
  | .name s => some (.quoted s)
  | .op s => if s = "*" then some .star else none
  | _ => none

/-- The column at the start of some pieces: a path of names in quotes that is not applied to
    arguments. -/
def columnAt? : List Piece → Option (List Name)
  | .atom a :: .atom .dot :: ps => a.quotedName?.bind fun n => (columnAt? ps).map (n :: ·)
  | .atom _ :: .brackets .round _ :: _ => none
  | .atom a :: _ => a.quotedName?.map fun n => [n]
  | _ => none

/-- Whether pieces are a query: `SELECT` and the beginning of what is selected.  A function of
    this name has its arguments or a dot behind it. -/
def isQuery : List Piece → Bool
  | .atom (.word w) :: .atom a :: _ => w == "SELECT" && a != .dot
  | _ => false

/-- Whether a piece is a dot. -/
def Piece.isDot : Piece → Bool
  | atom a => a == .dot
  | brackets .. => false

mutual

/-- The columns in some pieces that do not stand in a query within them; `dotted` if the pieces
    stand right behind a dot. -/
def columnsIn (dotted : Bool) : List Piece → List (List Name)
  | [] => []
  | p :: ps =>
    (if dotted then [] else (columnAt? (p :: ps)).toList) ++
      (columnsWithin p ++ columnsIn p.isDot ps)

/-- The columns within a piece. -/
def columnsWithin : Piece → List (List Name)
  | .atom _ => []
  | .brackets _ content => if isQuery content then [] else columnsIn false content

end

example : (tokens? "f(\"t\".\"a\") = \"b\" AND \"My f\"(\"t\".*) IN (SELECT c FROM \"t\")").bind
    (fun ts => (group [] [] ts).map (columnsIn false)) =
      some [[.quoted "t", .quoted "a"], [.quoted "b"], [.quoted "t", .star]] := by
  decide +kernel

/-! ### Pieces without columns -/

/-- An atom that is neither a column nor part of a path. -/
def Atom.Plain (a : Atom) : Prop := a.quotedName? = none ∧ a ≠ .dot

instance (a : Atom) : Decidable a.Plain := inferInstanceAs (Decidable (_ ∧ _))

/-- A word is plain. -/
theorem plain_word (w : String) : (Atom.word w).Plain := ⟨rfl, Atom.noConfusion⟩

/-- A text is plain, even if it looks like a column. -/
theorem plain_text (s : String) : (Atom.text s).Plain := ⟨rfl, Atom.noConfusion⟩

/-- A plain atom is no dot. -/
theorem Atom.Plain.isDot {a : Atom} (h : a.Plain) : (Piece.atom a).isDot = false := by
  rw [Piece.isDot, beq_eq_false_iff_ne]
  exact h.2

/-- An atom that is no name in quotes begins no column. -/
theorem columnAt_of_none {a : Atom} (h : a.quotedName? = none) (ps : List Piece) :
    columnAt? (.atom a :: ps) = none := by
  unfold columnAt?
  -- whatever stands behind the atom, a column would begin with its name
  split
  · rename_i heq
    cases heq
    rw [h]
    rfl
  · rfl
  · rename_i heq
    cases heq
    rw [h]
    rfl
  · rfl

/-- A plain atom shows no column. -/
theorem columnsIn_plain {a : Atom} (h : a.Plain) (ps : List Piece) :
    columnsIn false (.atom a :: ps) = columnsIn false ps := by
  rw [columnsIn, columnAt_of_none h.1, columnsWithin, h.isDot]
  rfl

/-- Brackets show what is within them. -/
theorem columnsIn_brackets (b : Bracket) (content ps : List Piece) :
    columnsIn false (.brackets b content :: ps) =
      columnsWithin (.brackets b content) ++ columnsIn false ps := by
  rw [columnsIn, Piece.isDot]
  rfl

/-! ### Paths -/

/-- A name as it goes on a path. -/
def behindDot (n : Name) : List Piece := [.atom .dot, .atom (n.atom true)]

/-- A path is its first name and the others, each behind a dot. -/
theorem pathPieces_cons (dotted : Bool) (n : Name) (names : List Name) :
    pathPieces dotted (n :: names) = .atom (n.atom dotted) :: names.flatMap behindDot := rfl

/-- The names behind a dot, one by one. -/
theorem behindDots_append (n : Name) (names : List Name) (rest : List Piece) :
    (n :: names).flatMap behindDot ++ rest =
      .atom .dot :: .atom (n.atom true) :: (names.flatMap behindDot ++ rest) := rfl

/-- A name is no dot. -/
theorem isDot_name (dotted : Bool) (n : Name) : (Piece.atom (n.atom dotted)).isDot = false := by
  cases n <;> cases dotted <;> rfl

/-- A name in quotes, or the `*`. -/
def Name.InQuotes (n : Name) : Prop := ∀ dotted, (n.atom dotted).quotedName? = some n

/-- A quoted name is in quotes. -/
theorem inQuotes_quoted (s : String) : (Name.quoted s).InQuotes := fun _ => rfl

/-- The `*` counts as if it were. -/
theorem inQuotes_star : Name.star.InQuotes := fun _ => rfl

/-- Names behind the first one show no column of their own. -/
theorem columnsIn_behindDots (names : List Name) (rest : List Piece) :
    columnsIn false (names.flatMap behindDot ++ rest) = columnsIn false rest := by
  induction names with
  | nil => rfl
  | cons n names ih =>
    rw [behindDots_append, columnsIn, columnAt_of_none rfl, columnsIn, isDot_name, ih]
    rfl

/-- Pieces that do not go on with a path: neither a dot nor arguments. -/
def Apart (ps : List Piece) : Prop :=
  ∀ p ∈ ps.head?, p.isDot = false ∧ ∀ content, p ≠ .brackets .round content

/-- Nothing goes on with no path. -/
theorem apart_nil : Apart [] := by
  intro p hp
  cases hp

/-- A plain atom goes on with no path. -/
theorem apart_plain {a : Atom} (h : a.Plain) (ps : List Piece) : Apart (.atom a :: ps) := by
  rintro p ⟨⟩
  exact ⟨h.isDot, fun content => Piece.noConfusion⟩

/-- A path of names in quotes is a column, unless more of it or arguments follow. -/
theorem columnAt_path {n : Name} {names : List Name} (h : ∀ m ∈ n :: names, m.InQuotes)
    (dotted : Bool) {rest : List Piece} (hrest : Apart rest) :
    columnAt? (.atom (n.atom dotted) :: (names.flatMap behindDot ++ rest)) =
      some (n :: names) := by
  induction names generalizing n dotted with
  | nil =>
    have hn := h n List.mem_cons_self dotted
    rw [List.flatMap_nil, List.nil_append]
    unfold columnAt?
    -- a dot or arguments behind the last name would contradict `hrest`
    split
    · rename_i heq
      cases heq
      cases (hrest _ rfl).1
    · rename_i heq
      cases heq
      exact absurd rfl ((hrest _ rfl).2 _)
    · rename_i heq
      cases heq
      rw [hn]
      rfl
    · rename_i hnone
      exact absurd rfl (hnone _ _)
  | cons m names ih =>
    rw [List.forall_mem_cons] at h
    rw [behindDots_append, columnAt?, h.1 dotted, Option.bind_some, ih h.2 true]
    rfl

/-- A path in front of arguments is no column. -/
theorem columnAt_function (n : Name) (names : List Name) (dotted : Bool) (args rest : List Piece) :
    columnAt? (.atom (n.atom dotted) ::
      (names.flatMap behindDot ++ .brackets .round args :: rest)) = none := by
  induction names generalizing n dotted with
  | nil => rfl
  | cons m names ih =>
    rw [behindDots_append, columnAt?, ih m true]
    cases (n.atom dotted).quotedName? <;> rfl

/-! ### Pieces and their columns -/

/-- Pieces that show some columns, in front of whatever stands apart from them, and do not
    begin a query. -/
structure Shows (ps : List Piece) (paths : List (List Name)) : Prop where
  columns (rest : List Piece) (h : Apart rest) :
    columnsIn false (ps ++ rest) = paths ++ columnsIn false rest
  no_query (rest : List Piece) : isQuery (ps ++ rest) = false

/-- Pieces that begin with an atom are a query only if that is `SELECT`. -/
theorem not_isQuery_atom {a : Atom} (h : a ≠ .word "SELECT") (ps : List Piece) :
    isQuery (.atom a :: ps) = false := by
  unfold isQuery
  split
  · rename_i heq
    cases heq
    have hw : (_ == "SELECT") = false := beq_eq_false_iff_ne.mpr fun hw => h (congrArg _ hw)
    rw [hw]
    rfl
  · rfl

namespace Shows

variable {l r : List Piece} {x y : List (List Name)}

/-- What is shown are the columns of the pieces by themselves. -/
theorem columnsIn_eq (h : Shows l x) : columnsIn false l = x := by
  have hcolumns := h.columns [] apart_nil
  rwa [List.append_nil, columnsIn, List.append_nil] at hcolumns

/-- Pieces that show columns are no query. -/
theorem not_isQuery (h : Shows l x) : isQuery l = false := by
  have hquery := h.no_query []
  rwa [List.append_nil] at hquery

/-- Pieces behind a plain atom. -/
theorem cons_plain (h : Shows l x) {a : Atom} (ha : a.Plain) (hselect : a ≠ .word "SELECT") :
    Shows (.atom a :: l) x := by
  refine ⟨fun rest hrest => ?_, fun rest => not_isQuery_atom hselect _⟩
  rw [List.cons_append, columnsIn_plain ha, h.columns rest hrest]

/-- Pieces with plain atoms behind them. -/
theorem append_plain (h : Shows l x) {as : List Atom} (has : ∀ a ∈ as, a.Plain) :
    Shows (l ++ as.map .atom) x := by
  refine ⟨fun rest hrest => ?_, fun rest => ?_⟩
  · have hrun : Apart (as.map .atom ++ rest) ∧
        columnsIn false (as.map .atom ++ rest) = columnsIn false rest := by
      -- the atoms are taken away one by one, from the front
      induction as with
      | nil => exact ⟨hrest, rfl⟩
      | cons a as ih =>
        rw [List.forall_mem_cons] at has
        refine ⟨apart_plain has.1 _, ?_⟩
        rw [List.map_cons, List.cons_append, columnsIn_plain has.1, (ih has.2).2]
    rw [List.append_assoc, h.columns _ hrun.1, hrun.2]
  · rw [List.append_assoc]
    exact h.no_query _

/-- Two parts with a plain atom between them. -/
theorem separated (hl : Shows l x) {a : Atom} (ha : a.Plain) (hr : Shows r y) :
    Shows (l ++ .atom a :: r) (x ++ y) := by
  refine ⟨fun rest hrest => ?_, fun rest => ?_⟩
  · rw [List.append_assoc, List.cons_append, hl.columns _ (apart_plain ha _),
      columnsIn_plain ha, hr.columns rest hrest, List.append_assoc]
  · rw [List.append_assoc]
    exact hl.no_query _

/-- A part with a plain atom and brackets behind it. -/
theorem append_brackets (hl : Shows l x) {a : Atom} (ha : a.Plain) (b : Bracket)
    (content : List Piece) :
    Shows (l ++ [.atom a, .brackets b content]) (x ++ columnsWithin (.brackets b content)) := by
  refine ⟨fun rest hrest => ?_, fun rest => ?_⟩
  · rw [List.append_assoc, List.cons_append, hl.columns _ (apart_plain ha _),
      columnsIn_plain ha, List.cons_append, List.nil_append, columnsIn_brackets, List.append_assoc]
  · rw [List.append_assoc]
    exact hl.no_query _

end Shows

/-- A plain atom on its own. -/
theorem shows_atom {a : Atom} (ha : a.Plain) (hselect : a ≠ .word "SELECT") :
    Shows [.atom a] [] :=
  ⟨fun rest _ => columnsIn_plain ha rest, fun rest => not_isQuery_atom hselect rest⟩

/-- A path that begins without quotes. -/
theorem shows_bare {w : String} (hselect : w ≠ "SELECT") (names : List Name) :
    Shows (pathPieces false (.bare w :: names)) [] := by
  rw [pathPieces_cons]
  refine ⟨fun rest _ => ?_, fun rest => not_isQuery_atom (fun h => hselect (Atom.word.inj h)) _⟩
  rw [List.cons_append, columnsIn, columnAt_of_none rfl, columnsWithin, isDot_name,
    columnsIn_behindDots]
  rfl

/-- A column. -/
theorem shows_column {path : List Name} (hne : path ≠ []) (h : ∀ n ∈ path, n.InQuotes) :
    Shows (pathPieces false path) [path] := by
  obtain ⟨n, names, rfl⟩ := List.exists_cons_of_ne_nil hne
  rw [pathPieces_cons]
  -- the path is a column unless it goes on, and no name of it is a keyword
  refine ⟨fun rest hrest => ?_, fun rest => ?_⟩
  · rw [List.cons_append, columnsIn, columnAt_path h false hrest, columnsWithin, isDot_name,
      columnsIn_behindDots]
    rfl
  · refine not_isQuery_atom (fun hselect => ?_) _
    have hn := h n List.mem_cons_self false
    rw [hselect] at hn
    cases hn

/-- A function with its arguments. -/
theorem shows_call {function : List Name} (hne : function ≠ []) (args : List Piece) :
    Shows (pathPieces false function ++ [.brackets .round args])
      (columnsWithin (.brackets .round args)) := by
  obtain ⟨n, names, rfl⟩ := List.exists_cons_of_ne_nil hne
  rw [pathPieces_cons]
  -- behind a path with arguments there is no column, but there may be some within them
  refine ⟨fun rest _ => ?_, fun rest => ?_⟩
  · rw [List.cons_append, List.cons_append, List.append_assoc, List.singleton_append, columnsIn,
      columnAt_function, columnsWithin, isDot_name, columnsIn_behindDots, columnsIn_brackets]
    rfl
  · -- a dot or the arguments stand behind the first name
    rw [List.cons_append, List.cons_append, List.append_assoc]
    cases names with
    | nil => cases n <;> rfl
    | cons m names => cases n <;> simp [isQuery, behindDot, Name.atom]

/-- A word with brackets behind it. -/
theorem shows_word_brackets {w : String} (hselect : w ≠ "SELECT") (b : Bracket)
    (content : List Piece) :
    Shows [word w, .brackets b content] (columnsWithin (.brackets b content)) := by
  refine ⟨fun rest _ => ?_, fun rest => ?_⟩
  · rw [List.cons_append, word, columnsIn_plain (plain_word w), List.cons_append,
      List.nil_append, columnsIn_brackets]
  · exact not_isQuery_atom (fun h => hselect (Atom.word.inj h)) _

/-- Brackets on their own. -/
theorem shows_brackets (b : Bracket) (content : List Piece) :
    Shows [.brackets b content] (columnsWithin (.brackets b content)) :=
  ⟨fun rest _ => columnsIn_brackets b content rest, fun _ => rfl⟩

/-- A query in brackets has no columns for those outside. -/
theorem columnsWithin_query {content : List Piece} (h : isQuery content = true) (b : Bracket) :
    columnsWithin (.brackets b content) = [] := by
  rw [columnsWithin, if_pos h]

/-- Anything else in brackets has its own. -/
theorem columnsWithin_of_shows {content : List Piece} {paths : List (List Name)}
    (h : Shows content paths) (b : Bracket) :
    columnsWithin (.brackets b content) = paths := by
  rw [columnsWithin, if_neg (by simp [h.not_isQuery]), h.columnsIn_eq]

/-! ### Lists of parts -/

/-- Parts that show some columns one after the other. -/
inductive ShowsEach : List (List Piece) → List (List Name) → Prop
  | nil : ShowsEach [] []
  | cons {item : List Piece} {items : List (List Piece)} {x y : List (List Name)} :
      Shows item x → ShowsEach items y → ShowsEach (item :: items) (x ++ y)

namespace ShowsEach

variable {items : List (List Piece)} {paths : List (List Name)}

/-- Parts with a plain atom between them, if there are any. -/
theorem shows_intercalate (h : ShowsEach items paths) (hne : items ≠ []) {a : Atom}
    (ha : a.Plain) : Shows ([.atom a].intercalate items) paths := by
  induction h with
  | nil => exact absurd rfl hne
  | @cons item items x y hitem hitems ih =>
    -- the last item ends the list; any other one is followed by the separator
    cases items with
    | nil =>
      cases hitems
      rw [List.intercalate_singleton, List.append_nil]
      exact hitem
    | cons next items =>
      rw [List.intercalate_cons_cons]
      simpa using hitem.separated ha (ih (List.cons_ne_nil _ _))

/-- Arguments and elements show their columns. -/
theorem columnsWithin_listed (h : ShowsEach items paths) (b : Bracket) :
    columnsWithin (.brackets b (listed items)) = paths := by
  cases items with
  | nil =>
    cases h
    rfl
  | cons item items =>
    have hcomma : Atom.comma.Plain := by decide
    exact columnsWithin_of_shows (h.shows_intercalate (List.cons_ne_nil _ _) hcomma) b

end ShowsEach

end RowPolicy.Sql
