namespace RowPolicy.Text

/-!
# Blank and control characters

* `isBlank` — the 25 characters with the property White_Space of the Unicode
  standard, which may surround the name of a command and the parts of a date;
* `isControl` — the 65 characters of general category Cc, none of which may
  stand in a comment line;
* `trim`, `trimStart` — a text without its outer blanks.
-/

/-- The ranges of White_Space, ascending and apart. -/
def blankRanges : List (Nat × Nat) :=
  [(0x09, 0x0D), (0x20, 0x20), (0x85, 0x85), (0xA0, 0xA0), (0x1680, 0x1680), (0x2000, 0x200A),
   (0x2028, 0x2029), (0x202F, 0x202F), (0x205F, 0x205F), (0x3000, 0x3000)]

/-- Whether a code point lies in one of the closed ranges. -/
def inRanges (ranges : List (Nat × Nat)) (n : Nat) : Bool :=
  ranges.any fun r => r.1 ≤ n && n ≤ r.2

/-- White space in the sense of the Unicode standard. -/
def isBlank (c : Char) : Bool := inRanges blankRanges c.toNat

/-- A control character: U+0000 to U+001F and U+007F to U+009F. -/
def isControl (c : Char) : Bool := c.toNat < 0x20 || (0x7F ≤ c.toNat && c.toNat ≤ 0x9F)

/-- A text without the blanks in front of it. -/
def trimStart (s : List Char) : List Char := s.dropWhile isBlank

/-- A text without the blanks around it. -/
def trim (s : List Char) : List Char := (trimStart (trimStart s).reverse).reverse

example : (blankRanges.map fun r => r.2 + 1 - r.1).sum = 25 := by decide

example : trim ['\t', 'a', ' ', 'b', '\u3000'] = ['a', ' ', 'b'] := by decide

end RowPolicy.Text
