namespace RowPolicy.Sql

/-!
# Scanning SQL text — quotes, brackets and what stands outside them

SQL quotes strings with `'` and names with `"`; inside quotes the mark is written
twice.  What a text does to the text around it depends on its characters outside
quotes alone:

* `Place`, `Place.after` — whether a scan stands outside quotes or inside them;
* `bare`, `edges` — the characters and the brackets that stand outside quotes;
* `nest` — the brackets that are open behind a text;
* `Contained` — a text that leaves everything around it as it was;
* `enclosed` — a text cut at the parenthesis that closes its surroundings;
* `Contained.enclosed_append` — a contained text does not hold that parenthesis.
-/

/-! ### Quotes -/

/-- A mark that opens and closes quotes. -/
def isMark (c : Char) : Bool := c == '\'' || c == '"'

/-- Where a scan stands. -/
inductive Place where
  | outside
  /-- Inside the quotes that a mark has opened. -/
  | inside (mark : Char)
  deriving DecidableEq, Repr

namespace Place

/-- The place behind one more character.  A mark that is written twice inside
    quotes leaves them and enters them again at once. -/
def next : Place → Char → Place
  | outside, c => if isMark c then inside c else outside
  | inside mark, c => if c = mark then outside else inside mark

/-- The place behind a whole text. -/
def after (place : Place) (s : List Char) : Place := s.foldl next place

@[simp] theorem after_nil (place : Place) : place.after [] = place := rfl

@[simp] theorem after_cons (place : Place) (c : Char) (s : List Char) :
    place.after (c :: s) = (place.next c).after s := rfl

/-- A character as it shows outside quotes: a mark and a character inside quotes
    do not show. -/
def shown (place : Place) (c : Char) : Option Char :=
  if place = outside ∧ isMark c = false then some c else none

end Place

/-- The characters of a text, with nothing in place of those that do not stand
    outside quotes. -/
def bare : Place → List Char → List (Option Char)
  | _, [] => []
  | place, c :: s => place.shown c :: bare (place.next c) s

/-! ### Brackets -/

/-- The two kinds of brackets. -/
inductive Bracket where
  | round
  | square
  deriving DecidableEq, Repr

/-- One side of a pair of brackets. -/
inductive Edge where
  | opening (b : Bracket)
  | closing (b : Bracket)
  deriving DecidableEq, Repr

/-- The edge that a character is. -/
def edge? (c : Char) : Option Edge :=
  if c = '(' then some (.opening .round)
  else if c = ')' then some (.closing .round)
  else if c = '[' then some (.opening .square)
  else if c = ']' then some (.closing .square)
  else none

/-- The brackets outside quotes, in order. -/
def edges (place : Place) (s : List Char) : List Edge :=
  (bare place s).filterMap fun c => c.bind edge?

/-- The brackets that are open behind some edges, the last one first, if those in
    `due` are open in front of them; `none` if an edge closes anything but the
    bracket that was opened last. -/
def nest : (due : List Bracket) → List Edge → Option (List Bracket)
  | due, [] => some due
  | due, .opening b :: es => nest (b :: due) es
  | [], .closing _ :: _ => none
  | d :: due, .closing b :: es => if d = b then nest due es else none

/-! ### Containment -/

/-- A text that a scan from outside quotes leaves outside quotes, that closes the
    brackets it opens, in order, and no others, and that holds nothing outside
    quotes which ends a statement, begins a comment or begins quotes of another
    kind. -/
structure Contained (s : List Char) : Prop where
  ends_outside : Place.outside.after s = .outside
  no_semicolon : some ';' ∉ bare .outside s
  no_line_comment : ¬ [some '-', some '-'] <:+: bare .outside s
  no_block_comment : ¬ [some '/', some '*'] <:+: bare .outside s
  no_dollar : some '$' ∉ bare .outside s
  nested : nest [] (edges .outside s) = some []

/-! ### The closing parenthesis -/

/-- The number of open parentheses behind a character that shows outside quotes. -/
def depthAfter (depth : Nat) (shown : Option Char) : Nat :=
  match shown.bind edge? with
  | some (.opening .round) => depth + 1
  | some (.closing .round) => depth - 1
  | _ => depth

/-- A text that stands behind an opening parenthesis, cut at the parenthesis that
    closes it: what is in front of that parenthesis, and what is behind it.
    `depth` counts the parentheses that are open in between. -/
def enclosed (place : Place) (depth : Nat) : List Char → Option (List Char × List Char)
  | [] => none
  | c :: s =>
    if place.shown c = some ')' ∧ depth = 0 then some ([], s)
    else
      (enclosed (place.next c) (depthAfter depth (place.shown c)) s).map fun p => (c :: p.1, p.2)

@[simp] theorem edges_nil (place : Place) : edges place [] = [] := rfl

/-- The brackets of a text are that of its first character, if it is one, and those of the rest. -/
theorem edges_cons (place : Place) (c : Char) (s : List Char) :
    edges place (c :: s) = ((place.shown c).bind edge?).toList ++ edges (place.next c) s := by
  cases h : (place.shown c).bind edge? <;> simp [edges, bare, h]

/-- A text that closes the brackets in front of it and its own leaves the next
    parenthesis to the surroundings. -/
theorem enclosed_of_nest (rest : List Char) (s : List Char) (place : Place) (due : List Bracket)
    (hplace : place.after s = .outside) (hnest : nest due (edges place s) = some []) :
    enclosed place (due.count .round) (s ++ ')' :: rest) = some (s, rest) := by
  -- on the text, with the parentheses among `due` as the depth
  induction s generalizing place due with
  | nil =>
    have hdue : due = [] := by simpa [nest] using hnest
    have hout : place = .outside := hplace
    subst hdue hout
    rfl
  | cons c s ih =>
    rw [Place.after_cons] at hplace
    rw [edges_cons] at hnest
    rw [List.cons_append, enclosed]
    cases hedge : (place.shown c).bind edge? with
    | none =>
      rw [hedge] at hnest
      have hshown : place.shown c ≠ some ')' := by
        intro h
        rw [h] at hedge
        exact absurd hedge (by decide)
      rw [if_neg (fun h => hshown h.1), depthAfter, hedge, ih _ due hplace hnest]
      rfl
    | some e =>
      rw [hedge] at hnest
      cases e with
      | opening b =>
        have hshown : place.shown c ≠ some ')' := by
          intro h
          rw [h] at hedge
          exact absurd hedge (by simp [edge?])
        have hrest := ih _ (b :: due) hplace hnest
        rw [if_neg (fun h => hshown h.1), depthAfter, hedge]
        cases b <;> simp_all
      | closing b =>
        cases due with
        | nil => exact absurd hnest (by simp [nest])
        | cons d due =>
          obtain ⟨rfl, htail⟩ : d = b ∧ nest due (edges (place.next c) s) = some [] := by
            simpa [nest] using hnest
          have hrest := ih _ due hplace htail
          rw [depthAfter, hedge]
          cases d with
          | round => simp [hrest]
          | square =>
            have hshown : place.shown c ≠ some ')' := by
              intro h
              rw [h] at hedge
              exact absurd hedge (by decide)
            simp [hshown, hrest]

/-- **No way out.** A contained text behind an opening parenthesis stands in front of
    the parenthesis that closes it, whatever follows. -/
theorem Contained.enclosed_append {s : List Char} (h : Contained s) (rest : List Char) :
    enclosed .outside 0 (s ++ ')' :: rest) = some (s, rest) :=
  enclosed_of_nest rest s .outside [] h.ends_outside h.nested

end RowPolicy.Sql
