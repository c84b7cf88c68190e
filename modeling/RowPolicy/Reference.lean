import RowPolicy.Text.Quoted
import RowPolicy.Text.Joined

namespace RowPolicy

/-!
# References — names and dotted paths of names in SQL text

A reference is text such as `col`, `alias.col` or `"My Table".col`.  It is kept
as its author wrote it; the dots outside double quotes cut it into *segments*,
each of which denotes one name.

* `quoteIdentifier`, `escapeIdentifier`, `quoteText` — the written forms of a
  name and of a string;
* `Reference.segments` — the segments of a reference;
* `Reference.nameOf` — the name a segment denotes;
* `Reference.quoted`, `Reference.escaped` — the reference as it stands in SQL,
  with every segment quoted or only those that need it;
* `Reference.qualifier?`, `Reference.columnName` — the table a reference
  points into, and the bare name at its end.
-/

/-! ### Names and strings -/

/-- A letter or digit of ASCII, or an underscore. -/
def isWordChar (c : Char) : Bool := c.isAlphanum || c == '_'

/-- A non-empty name of word characters, which stands unquoted. -/
def isPlainName (name : String) : Bool :=
  !name.toList.isEmpty && name.toList.all isWordChar

/-- A name between double quotes. -/
def quoteIdentifier (name : String) : String :=
  String.ofList (Quoted.write '"' name.toList)

/-- A name as an identifier, quoted only if it is not plain. -/
def escapeIdentifier (name : String) : String :=
  if isPlainName name then name else quoteIdentifier name

/-- A string literal: the text between single quotes. -/
def quoteText (text : String) : String :=
  String.ofList (Quoted.write '\'' text.toList)

namespace Reference

/-! ### Segments -/

/-- Cuts at the dots outside double quotes: the first piece, and those behind
    it.  `quoted` says whether the text starts inside quotes. -/
def cut (quoted : Bool) : List Char → List Char × List (List Char)
  | [] => ([], [])
  | c :: s =>
    if c = '.' ∧ quoted = false then
      let (first, rest) := cut false s
      ([], first :: rest)
    else
      let (first, rest) := cut (quoted != (c == '"')) s
      (c :: first, rest)

/-- The segments of a reference; there is at least one, perhaps empty. -/
def segments (reference : String) : List String :=
  let (first, rest) := cut false reference.toList
  (first :: rest).map String.ofList

/-- The content of a segment that is one complete quoted name. -/
def quotedName? (segment : String) : Option String :=
  (Quoted.read? '"' segment.toList).map String.ofList

/-- The name a segment denotes: the content of a quoted name, else the segment
    itself. -/
def nameOf (segment : String) : String := (quotedName? segment).getD segment

/-! ### The written form -/

/-- A segment as it is written: `*` and complete quoted names stand as they
    are, everything else goes through `form`. -/
def writeSegment (form : String → String) (segment : String) : String :=
  if segment = "*" ∨ (quotedName? segment).isSome then segment else form segment

/-- The reference with every segment written through `form`. -/
def write (form : String → String) (reference : String) : String :=
  joined "." ((segments reference).map (writeSegment form))

/-- The reference with every segment in double quotes, as columns and protected
    tables are written. -/
def quoted (reference : String) : String := write quoteIdentifier reference

/-- The reference with only those segments in quotes that need them, as tables
    and columns of a subquery and functions are written. -/
def escaped (reference : String) : String := write escapeIdentifier reference

/-! ### What a reference points to -/

/-- The table a column reference points into: the name of its first segment, if
    there are several segments and that name is not empty. -/
def qualifier? (reference : String) : Option String :=
  match segments reference with
  | first :: _ :: _ => if nameOf first = "" then none else some (nameOf first)
  | _ => none

/-- The bare name at the end of a reference. -/
def columnName (reference : String) : String :=
  ((segments reference).getLast?.map nameOf).getD ""

end Reference

example : Reference.quoted "m.\"a.b\".*" = "\"m\".\"a.b\".*" := by decide +kernel

example : Reference.qualifier? "\"My T\".id" = some "My T" := by decide +kernel

end RowPolicy
