import Mathlib.Data.List.Forall2
import RowPolicy.Proofs.Sql.Scan
import RowPolicy.Reference

namespace RowPolicy.Sql

/-!
# Tokens of SQL text

SQL text is read from left to right, and each token takes as many characters as
it can:

* `Token`, `tokens?` — the tokens of a text, if it has any: a text with quotes that
  are left open, with a comment, or with a character of no use in an expression
  has none;
* `SpellsFrom`, `Spells`, `SpellsAll` — the tokens that a piece of text contributes to
  a larger text, in front of a boundary or whatever follows;
* `Spells.append` and its variants — pieces contribute one after the other.
-/

/-! ### Tokens -/

/-- A token that is no bracket. -/
inductive Atom where
  /-- A run of letters, digits and underscores. -/
  | word (s : String)
  /-- A word right behind a dot, where no word is a keyword. -/
  | label (s : String)
  /-- A name in double quotes, without its quotes. -/
  | name (s : String)
  /-- A string literal, without its quotes. -/
  | text (s : String)
  /-- A run of operator characters. -/
  | op (s : String)
  | dot
  | comma
  deriving DecidableEq, Repr

/-- A token of SQL text. -/
inductive Token where
  | atom (a : Atom)
  | edge (e : Edge)
  deriving DecidableEq, Repr

/-- White space of SQL. -/
def isSpace (c : Char) : Bool := c == ' ' || c == '\n' || c == '\t' || c == '\r'

/-- A character of operators; the colon serves type casts. -/
def isOpChar (c : Char) : Bool := "+-*/<>=~!@#%^&|?:".toList.contains c

/-- The token that a character is by itself. -/
def punctuation? (c : Char) : Option Token :=
  if c = '.' then some (.atom .dot)
  else if c = ',' then some (.atom .comma)
  else (edge? c).map .edge

/-! ### The lexer -/

/-- What the lexer has read of the token it is in. -/
inductive LexState where
  /-- No token is begun; `dotted` right behind a dot. -/
  | start (dotted : Bool)
  | word (dotted : Bool) (s : List Char)
  | op (s : List Char)
  /-- Inside quotes. -/
  | quoted (mark : Char) (s : List Char)
  /-- Behind a mark that closes the quotes, unless it is written twice. -/
  | closed (mark : Char) (s : List Char)
  deriving DecidableEq, Repr

namespace LexState

/-- The tokens that are complete where a text ends; `none` inside quotes. -/
def finish : LexState → Option (List Token)
  | start _ => some []
  | word dotted s =>
    some [.atom (if dotted then .label (String.ofList s) else .word (String.ofList s))]
  | op s => some [.atom (.op (String.ofList s))]
  | quoted .. => none
  | closed mark s =>
    if mark = '\'' then some [.atom (.text (String.ofList s))]
    else if mark = '"' then some [.atom (.name (String.ofList s))]
    else none

/-- The tokens and the state of a character that begins something new. -/
def begin (dotted : Bool) (c : Char) : Option (List Token × LexState) :=
  if isSpace c then some ([], start false)
  else if isWordChar c then some ([], word dotted [c])
  else if isOpChar c then some ([], op [c])
  else if isMark c then some ([], quoted c [])
  else (punctuation? c).map fun t => ([t], start (t == .atom .dot))

/-- A character that begins something new behind tokens that are complete. -/
def beginBehind (ts : List Token) (c : Char) : Option (List Token × LexState) :=
  (begin false c).map fun p => (ts ++ p.1, p.2)

/-- The pairs of characters that begin a comment. -/
def commentMarks : List (Char × Char) := [('-', '-'), ('/', '*')]

/-- Whether a character behind others of an operator begins a comment. -/
def opensComment (s : List Char) (c : Char) : Bool :=
  commentMarks.any fun p => s.getLast? == some p.1 && c == p.2

/-- The tokens that one more character completes, and the state behind it. -/
def step : LexState → Char → Option (List Token × LexState)
  | start dotted, c => begin dotted c
  | word dotted s, c =>
    if isWordChar c then some ([], word dotted (s ++ [c]))
    -- a word in front of a mark begins a literal of another kind
    else if isMark c then none
    else (word dotted s).finish.bind fun ts => beginBehind ts c
  | op s, c =>
    if isOpChar c then if opensComment s c then none else some ([], op (s ++ [c]))
    else (op s).finish.bind fun ts => beginBehind ts c
  | quoted mark s, c =>
    some ([], if c = mark then closed mark s else quoted mark (s ++ [c]))
  | closed mark s, c =>
    if c = mark then some ([], quoted mark (s ++ [c]))
    else (closed mark s).finish.bind fun ts => beginBehind ts c

end LexState

/-- The tokens that a text completes and the state behind it. -/
def run : LexState → List Char → Option (List Token × LexState)
  | st, [] => some ([], st)
  | st, c :: s => (st.step c).bind fun p => (run p.2 s).map fun q => (p.1 ++ q.1, q.2)

/-- The tokens of a text. -/
def tokens? (s : String) : Option (List Token) :=
  (run (.start false) s.toList).bind fun p => p.2.finish.map (p.1 ++ ·)

example : tokens? "\"a\"\"b\" <> -1.5" =
    some ([.name "a\"b", .op "<>", .op "-", .word "1", .dot, .label "5"].map .atom) := by decide

example : tokens? "1--2" = none ∧ tokens? "'a" = none ∧ tokens? "a;b" = none := by decide

/-- Two texts are run one after the other, and their tokens joined. -/
theorem run_append (st : LexState) (a b : List Char) :
    run st (a ++ b) =
      (run st a).bind fun p => (run p.2 b).map fun q => (p.1 ++ q.1, q.2) := by
  induction a generalizing st with
  | nil => simp [run]
  | cons c a ih =>
    rw [List.cons_append, run, run]
    cases st.step c with
    | none => rfl
    | some p =>
      rw [Option.bind_some, Option.bind_some, ih]
      -- the tokens of `a` stand in front of those of `b`
      cases run p.2 a with
      | none => rfl
      | some q =>
        cases hb : run q.2 b <;> simp [hb]

/-! ### Pieces of text -/

/-- A character that ends every token in front of it: white space or punctuation. -/
def isBoundary (c : Char) : Bool := " \n\t\r.,()[]".toList.contains c

/-- A piece of text that begins with a boundary. -/
def Parted (s : String) : Prop := ∃ c r, s.toList = c :: r ∧ isBoundary c = true

/-- A piece of text that contributes some tokens in front of a boundary, where it
    stands at the beginning or, if `dotted`, behind a dot. -/
def SpellsFrom (dotted : Bool) (s : String) (ts : List Token) : Prop :=
  ∃ us st vs, run (.start dotted) s.toList = some (us, st) ∧ st.finish = some vs ∧
    st ≠ .start true ∧ ts = us ++ vs

/-- A piece of text that contributes some tokens in front of a boundary. -/
abbrev Spells (s : String) (ts : List Token) : Prop := SpellsFrom false s ts

/-- A piece of text that contributes some tokens, whatever stands behind it. -/
def SpellsAll (s : String) (ts : List Token) : Prop :=
  run (.start false) s.toList = some (ts, .start false)

instance (s : String) (ts : List Token) : Decidable (SpellsAll s ts) :=
  inferInstanceAs (Decidable (_ = _))

/-- A text is parted if it begins with a boundary. -/
theorem parted_of_head {s : String} (h : s.toList.head?.any isBoundary = true) : Parted s := by
  cases hlist : s.toList with
  | nil =>
    rw [hlist] at h
    cases h
  | cons c rest =>
    rw [hlist] at h
    exact ⟨c, rest, hlist, h⟩

/-- What follows does not matter for the beginning. -/
theorem Parted.append {a : String} (h : Parted a) (b : String) : Parted (a ++ b) := by
  obtain ⟨c, r, hcr, hc⟩ := h
  exact ⟨c, r ++ b.toList, by rw [String.toList_append, hcr, List.cons_append], hc⟩

/-- A text that spells tokens up to its end spells them. -/
theorem SpellsAll.spells {s : String} {ts : List Token} (h : SpellsAll s ts) : Spells s ts :=
  ⟨ts, .start false, [], h, rfl, by simp, by simp⟩

/-- The tokens that a text spells are those that are read from it. -/
theorem Spells.tokens? {s : String} {ts : List Token} (h : Spells s ts) :
    tokens? s = some ts := by
  obtain ⟨us, st, vs, hrun, hfinish, -, rfl⟩ := h
  rw [Sql.tokens?, hrun, Option.bind_some, hfinish, Option.map_some]

/-- A boundary is no character of words or operators, and no mark. -/
theorem classes_of_isBoundary {c : Char} (hc : isBoundary c = true) :
    isWordChar c = false ∧ isOpChar c = false ∧ isMark c = false := by
  have hall : " \n\t\r.,()[]".toList.all
      fun c => !isWordChar c && !isOpChar c && !isMark c := by decide
  simpa [and_assoc] using List.all_eq_true.mp hall c (List.contains_iff_mem.mp hc)

/-- A boundary completes the token in front of it and begins anew. -/
theorem step_boundary {st : LexState} {ts : List Token} {c : Char} (hc : isBoundary c = true)
    (hfinish : st.finish = some ts) (hst : st ≠ .start true) :
    st.step c = LexState.beginBehind ts c := by
  obtain ⟨hword, hop, hmark⟩ := classes_of_isBoundary hc
  cases st with
  | start dotted =>
    cases dotted with
    -- a boundary behind a dot would still be taken as the start of a label
    | true => exact absurd rfl hst
    | false =>
      cases hfinish
      rw [LexState.step, LexState.beginBehind]
      cases LexState.begin false c <;> simp
  | word dotted s =>
    rw [LexState.step, if_neg (by simp [hword]), if_neg (by simp [hmark]), hfinish, Option.bind_some]
  | op s => rw [LexState.step, if_neg (by simp [hop]), hfinish, Option.bind_some]
  | quoted mark s => cases hfinish
  | closed mark s =>
    -- a mark here would be a doubled one, and the quotes would go on
    have hne : c ≠ mark := by
      rintro rfl
      rw [LexState.finish] at hfinish
      rw [isMark, Bool.or_eq_false_iff, beq_eq_false_iff_ne, beq_eq_false_iff_ne] at hmark
      rw [if_neg hmark.1, if_neg hmark.2] at hfinish
      cases hfinish
    rw [LexState.step, if_neg hne, hfinish, Option.bind_some]

/-- In front of a character that completes the token in front of it, the tokens of a
    piece are complete. -/
theorem run_behind {st₀ st : LexState} {a : List Char} {us vs : List Token}
    (hrun : run st₀ a = some (us, st)) {c : Char} (hstep : st.step c = LexState.beginBehind vs c)
    (rest : List Char) :
    run st₀ (a ++ c :: rest) =
      (run (.start false) (c :: rest)).map fun q => (us ++ vs ++ q.1, q.2) := by
  rw [run_append, hrun, Option.bind_some, run, run, hstep, LexState.beginBehind, LexState.step]
  cases LexState.begin false c with
  | none => rfl
  | some p => simp [Function.comp_def]

/-- A boundary behind a text completes its last token. -/
theorem SpellsFrom.run_boundary {dotted : Bool} {a : String} {ts : List Token}
    (h : SpellsFrom dotted a ts) {c : Char} (hc : isBoundary c = true) (rest : List Char) :
    run (.start dotted) (a.toList ++ c :: rest) =
      (run (.start false) (c :: rest)).map fun q => (ts ++ q.1, q.2) := by
  obtain ⟨us, st, vs, hrun, hfinish, hst, rfl⟩ := h
  exact run_behind hrun (step_boundary hc hfinish hst) rest

/-- Two pieces with a dot between them. -/
theorem SpellsFrom.append_dot {dotted : Bool} {a b : String} {ts us : List Token}
    (ha : SpellsFrom dotted a ts) (hb : SpellsFrom true b us) :
    SpellsFrom dotted (a ++ "." ++ b) (ts ++ .atom .dot :: us) := by
  obtain ⟨vs, st, ws, hrun, hfinish, hst, rfl⟩ := hb
  have hdot : LexState.begin false '.' = some ([.atom .dot], .start true) := by decide
  refine ⟨ts ++ .atom .dot :: vs, st, ws, ?_, hfinish, hst, by simp⟩
  rw [String.append_assoc, String.toList_append, String.toList_append,
    show ".".toList = ['.'] from rfl, List.singleton_append, ha.run_boundary (by decide), run,
    LexState.step, hdot, Option.bind_some, hrun]
  simp

/-- Two texts spell their tokens in a row if the second one is parted. -/
theorem Spells.append {a b : String} {ts us : List Token} (ha : Spells a ts) (hb : Spells b us)
    (hparted : Parted b) : Spells (a ++ b) (ts ++ us) := by
  obtain ⟨c, rest, hlist, hc⟩ := hparted
  obtain ⟨vs, st, ws, hrun, hfinish, hst, rfl⟩ := hb
  refine ⟨ts ++ vs, st, ws, ?_, hfinish, hst, by rw [List.append_assoc]⟩
  rw [String.toList_append, hlist, SpellsFrom.run_boundary ha hc, ← hlist, hrun, Option.map_some]

/-- The same, if the second one is complete at its end. -/
theorem Spells.append_all {a b : String} {ts us : List Token} (ha : Spells a ts)
    (hb : SpellsAll b us) (hparted : Parted b) : SpellsAll (a ++ b) (ts ++ us) := by
  obtain ⟨c, rest, hlist, hc⟩ := hparted
  rw [SpellsAll, String.toList_append, hlist, SpellsFrom.run_boundary ha hc, ← hlist, hb,
    Option.map_some]

/-- A text that is complete at its end may be followed by anything. -/
theorem SpellsAll.append_spells {a b : String} {ts us : List Token} (ha : SpellsAll a ts)
    (hb : Spells b us) : Spells (a ++ b) (ts ++ us) := by
  obtain ⟨vs, st, ws, hrun, hfinish, hst, rfl⟩ := hb
  refine ⟨ts ++ vs, st, ws, ?_, hfinish, hst, by rw [List.append_assoc]⟩
  rw [String.toList_append, run_append, ha, Option.bind_some, hrun, Option.map_some]

/-- Two texts that are complete at their ends are complete together. -/
theorem SpellsAll.append {a b : String} {ts us : List Token} (ha : SpellsAll a ts)
    (hb : SpellsAll b us) : SpellsAll (a ++ b) (ts ++ us) := by
  rw [SpellsAll, String.toList_append, run_append, ha, Option.bind_some, hb, Option.map_some]

/-- Two pieces with a space between them. -/
theorem Spells.spaced {a b : String} {ts us : List Token} (ha : Spells a ts) (hb : Spells b us) :
    Spells (a ++ " " ++ b) (ts ++ us) := by
  have hspace : SpellsAll " " [] := rfl
  have hfront := ha.append_all hspace (parted_of_head rfl)
  rw [List.append_nil] at hfront
  exact hfront.append_spells hb

/-- An empty text spells nothing. -/
theorem spells_empty : Spells "" [] :=
  ⟨[], .start false, [], rfl, rfl, by simp, rfl⟩

/-- Pieces with a separator between neighbours contribute their tokens with those of
    the separator between them. -/
theorem Spells.joined {sep : String} {ss : List Token} (hsep : SpellsAll sep ss)
    (hparted : Parted sep) {items : List String} {tss : List (List Token)}
    (h : List.Forall₂ Spells items tss) : Spells (joined sep items) (ss.intercalate tss) := by
  induction h with
  | nil => exact spells_empty
  | @cons item ts items tss hitem hitems ih =>
    cases hitems with
    | nil => simpa using hitem
    | cons =>
      rw [joined_cons_cons, List.intercalate_cons_cons, String.append_assoc, List.append_assoc]
      exact hitem.append (hsep.append_spells ih) (hparted.append _)

end RowPolicy.Sql
