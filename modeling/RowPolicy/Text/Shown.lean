import RowPolicy.Text.Glyph

namespace RowPolicy.Text

/-!
# Texts as messages show them

A text that is found in the wrong place is shown between double quotes, with
everything escaped that would not be seen or would end the quotes.

* `shown` — the shown form of a text.
-/

/-- The hexadecimal digits of a number, without leading zeros. -/
def hexDigits (n : Nat) : List Char := Nat.toDigits 16 n

/-- A character of a text as it is shown. -/
def shownChar (c : Char) : List Char :=
  if c = '"' then ['\\', '"']
  else if c = '\\' then ['\\', '\\']
  else if c = '\t' then ['\\', 't']
  else if c = '\r' then ['\\', 'r']
  else if c = '\n' then ['\\', 'n']
  else if c.toNat = 0 then ['\\', '0']
  else if hasGlyph c then [c]
  else '\\' :: 'u' :: '\x7b' :: (hexDigits c.toNat ++ ['\x7d'])

/-- A text between double quotes, with escapes. -/
def shown (s : String) : String :=
  String.ofList ('"' :: (s.toList.flatMap shownChar ++ ['"']))

example : shown "a\"é\u0301" = "\"a\\\"é\\u\x7b301\x7d\"" := by decide +kernel

end RowPolicy.Text
