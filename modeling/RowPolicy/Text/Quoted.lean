namespace RowPolicy.Quoted

/-!
# Quoted text — a mark at both ends, a mark inside written twice

SQL quotes names with `"` and strings with `'`, in one and the same way.  Both
directions work on lists of characters and take the mark as a parameter:

* `write` puts marks around a text and doubles the marks inside it;
* `read?` gives the text back and refuses everything that `write` cannot have
  written: a missing end, a mark that stands alone, characters behind the
  closing mark.
-/

/-- A text with every mark in it written twice. -/
def doubled (mark : Char) : List Char → List Char
  | [] => []
  | c :: s => if c = mark then c :: c :: doubled mark s else c :: doubled mark s

/-- Doubling only adds characters. -/
theorem length_le_length_doubled (mark : Char) (s : List Char) :
    s.length ≤ (doubled mark s).length := by
  induction s with
  | nil => exact Nat.le_refl 0
  | cons c s ih =>
    rw [doubled]
    by_cases hc : c = mark
    · rw [if_pos hc, List.length_cons, List.length_cons, List.length_cons]
      omega
    · rw [if_neg hc, List.length_cons, List.length_cons]
      omega

/-- A text between two marks, with the marks inside it doubled. -/
def write (mark : Char) (s : List Char) : List Char :=
  mark :: (doubled mark s ++ [mark])

/-- The text in front of a closing mark that ends the whole input; what stands
    behind the opening mark is read here. -/
def readBody? (mark : Char) : List Char → Option (List Char)
  | [] => none
  | [c] => if c = mark then some [] else none
  | c :: d :: t =>
    if c = mark then
      if d = mark then (readBody? mark t).map (mark :: ·) else none
    else (readBody? mark (d :: t)).map (c :: ·)

/-- The text that a quoted form stands for. -/
def read? (mark : Char) : List Char → Option (List Char)
  | [] => none
  | c :: t => if c = mark then readBody? mark t else none

example : read? '"' (write '"' ['a', '"', 'b']) = some ['a', '"', 'b'] := by decide

example : read? '"' ['"', 'a', '"', '"'] = none := by decide

end RowPolicy.Quoted
