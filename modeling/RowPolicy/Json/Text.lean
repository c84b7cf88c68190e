import RowPolicy.Json.Reading

namespace RowPolicy.Json.Text

/-!
# Texts in JSON — what stands between two quotation marks

A text is read character by character.  A backslash starts an escape: one
letter for a common character, or `u` and four hexadecimal digits for a UTF-16
unit.  Characters beyond U+FFFF take two units in a row, and no unit of a pair
may stand alone.

* `State` — what the characters read last have begun;
* `read` — the text in front of the closing mark.
-/

/-- What the next character continues. -/
inductive State where
  | plain
  /-- Behind a backslash. -/
  | escape
  /-- Before the last `left + 1` digits of a unit, with the first half of a
      pair, if there was one. -/
  | unit (left value : Nat) (first : Option Nat)
  /-- Behind the first half of a pair. -/
  | pair (first : Nat)
  /-- Behind a backslash that follows the first half of a pair. -/
  | pairEscape (first : Nat)
  deriving DecidableEq, Repr

/-- The value of a hexadecimal digit. -/
def hexValue? (c : Char) : Option Nat :=
  if c.isDigit then some (c.toNat - '0'.toNat)
  else if 'a' ≤ c ∧ c ≤ 'f' then some (c.toNat - 'a'.toNat + 10)
  else if 'A' ≤ c ∧ c ≤ 'F' then some (c.toNat - 'A'.toNat + 10)
  else none

/-- The character that a letter behind a backslash stands for. -/
def escaped? : Char → Option Char
  | '"' => some '"'
  | '\\' => some '\\'
  | '/' => some '/'
  | 'b' => some '\x08'
  | 'f' => some '\x0c'
  | 'n' => some '\n'
  | 'r' => some '\r'
  | 't' => some '\t'
  | _ => none

/-- Whether a unit is the first half of a pair. -/
def isFirstHalf (n : Nat) : Bool := 0xD800 ≤ n && n ≤ 0xDBFF

/-- Whether a unit is the second half of a pair. -/
def isSecondHalf (n : Nat) : Bool := 0xDC00 ≤ n && n ≤ 0xDFFF

/-- The character of a pair. -/
def pairChar (first second : Nat) : Char :=
  Char.ofNat (0x10000 + (first - 0xD800) * 0x400 + (second - 0xDC00))

/-- A state and the character that is complete in it, if there is one. -/
abbrev Advance := Option Char × State

/-- A complete unit. -/
def unitDone (n : Nat) : Option Nat → Except Stop Advance
  | some first =>
    if isSecondHalf n then .ok (some (pairChar first n), .plain) else .error .malformed
  | none =>
    if isSecondHalf n then .error .malformed
    else if isFirstHalf n then .ok (none, .pair n)
    else .ok (some (Char.ofNat n), .plain)

/-- The digits of a unit, for which four bytes have to be left. -/
def unitStart (first : Option Nat) (rest : List Char) : Except Stop Advance :=
  if (String.ofList (rest.take 4)).utf8ByteSize < 4 then .error .truncated
  else .ok (none, .unit 3 0 first)

/-- What one character does, given those behind it. -/
def step (c : Char) (rest : List Char) : State → Except Stop Advance
  | .plain =>
    if c = '\\' then .ok (none, .escape)
    else if c.toNat < 0x20 then .error .malformed
    else .ok (some c, .plain)
  | .escape =>
    if c = 'u' then unitStart none rest
    else match escaped? c with
      | some d => .ok (some d, .plain)
      | none => .error .malformed
  | .unit left value first =>
    match hexValue? c with
    | none => .error .malformed
    | some d =>
      match left with
      | 0 => unitDone (value * 16 + d) first
      | left + 1 => .ok (none, .unit left (value * 16 + d) first)
  | .pair first => if c = '\\' then .ok (none, .pairEscape first) else .error .malformed
  | .pairEscape first => if c = 'u' then unitStart (some first) rest else .error .malformed

/-- The text up to the closing mark, and what stands behind the mark. -/
def read (state : State) : List Char → Except Stop (List Char × List Char)
  | [] => .error .truncated
  | c :: s =>
    if state = .plain ∧ c = '"' then .ok ([], s)
    else do
      let (complete, state) ← step c s state
      let (chars, rest) ← read state s
      return (complete.toList ++ chars, rest)

example : (read .plain "a\\u00e9\\ud83d\\ude00\\n\" 1".toList).toOption =
    some ("aé😀\n".toList, " 1".toList) := by decide +kernel

end RowPolicy.Json.Text
