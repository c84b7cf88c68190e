import Mathlib.Data.List.Forall2
import RowPolicy.Proofs.Sql.Scan
import RowPolicy.Text.Blank
import RowPolicy.Text.Joined

namespace RowPolicy.Sql

/-!
# Scripts — the statements of a text

A text is run as a script: comments are dropped, what stands between two semicolons is a
statement, and blanks around a statement do not count.  Quotes hide semicolons and
dashes.

* `withoutComments`, `split`, `statements` — how a script is read;
* `IsStatement` — a text that is one statement, wherever it stands;
* `Runs` — a text that is read as some statements, whatever follows;
* `parts_lines` — statements that stand on lines of their own;
* `Runs.joined`, `Runs.behind_comment` — texts put together;
* `Runs.statements_eq` — a whole script.
-/

/-! ### Reading a script -/

/-- A character that ends a line, and a comment with it. -/
def isLineEnd (c : Char) : Bool := c == '\n' || c == '\r'

/-- What a scan for comments is in. -/
inductive Region where
  | code (place : Place)
  | comment

/-- A text without the comments that two dashes outside quotes begin. -/
def withoutComments : Region → List Char → List Char
  | _, [] => []
  | .comment, c :: s =>
    if isLineEnd c then c :: withoutComments (.code .outside) s else withoutComments .comment s
  | .code place, c :: s =>
    if place = .outside ∧ c = '-' ∧ s.head? = some '-' then withoutComments .comment s
    else c :: withoutComments (.code (place.next c)) s

/-- The parts of a text between the semicolons outside quotes. -/
def split : Place → List Char → List (List Char)
  | _, [] => [[]]
  | place, c :: s =>
    if place.shown c = some ';' then [] :: split (place.next c) s
    else (split (place.next c) s).modifyHead (c :: ·)

/-- The parts of a script without comments and without blanks around them. -/
def parts (script : List Char) : List String :=
  (split .outside (withoutComments (.code .outside) script)).map fun s =>
    String.ofList (Text.trim s)

/-- The statements of a script: its parts, apart from an empty one at the end. -/
def statements (script : String) : List String :=
  let texts := parts script.toList
  if texts.getLast? = some "" then texts.dropLast else texts

example : statements "-- a; 'b\nSELECT ';--' ;\n\nSELECT \"a\"\"--\"; -- c" =
    ["SELECT ';--'", "SELECT \"a\"\"--\""] := by decide +kernel

/-! ### Parts of a script -/

/-- A text without comment marks outside quotes stays as it is. -/
theorem withoutComments_append {place : Place} {s rest : List Char}
    (hcomment : ¬ [some '-', some '-'] <:+: bare place s) (hrest : rest.head? ≠ some '-') :
    withoutComments (.code place) (s ++ rest) =
      s ++ withoutComments (.code (place.after s)) rest := by
  induction s generalizing place with
  | nil => rfl
  | cons c s ih =>
    rw [bare, List.infix_cons_iff, not_or] at hcomment
    obtain ⟨hhere, htail⟩ := hcomment
    -- two dashes would be within `s`, or at the end of it and in front of `rest`
    have hnot : ¬ (place = .outside ∧ c = '-' ∧ (s ++ rest).head? = some '-') := by
      rintro ⟨rfl, rfl, hhead⟩
      cases s with
      | nil => exact hrest hhead
      | cons d s =>
        have hd : d = '-' := by simpa using hhead
        subst hd
        exact hhere (List.cons_prefix_cons.mpr ⟨rfl, List.cons_prefix_cons.mpr
          ⟨rfl, List.nil_prefix⟩⟩)
    rw [List.cons_append, withoutComments, if_neg hnot, ih htail]
    rfl

/-- A text without semicolons outside quotes is not cut. -/
theorem split_append {place : Place} {s rest : List Char} (h : some ';' ∉ bare place s) :
    split place (s ++ rest) = (split (place.after s) rest).modifyHead (s ++ ·) := by
  induction s generalizing place with
  | nil => exact (congrFun List.modifyHead_id _).symm
  | cons c s ih =>
    rw [bare, List.mem_cons, not_or] at h
    rw [List.cons_append, split, if_neg (Ne.symm h.1), ih h.2, List.modifyHead_modifyHead]
    rfl

/-- A text that is one statement, wherever it stands. -/
structure IsStatement (s : String) : Prop where
  contained : Contained s.toList
  trimmed : Text.trim s.toList = s.toList

/-- A text that is empty is one empty part. -/
theorem parts_nil : parts [] = [""] := rfl

/-- A statement with its semicolon is the first piece. -/
theorem parts_statement {s : String} (h : IsStatement s) (rest : List Char) :
    parts (s.toList ++ ';' :: rest) = s :: parts rest := by
  -- behind a statement the scan is outside quotes, so the semicolon counts
  have hsemicolon : withoutComments (.code .outside) (';' :: rest) =
      ';' :: withoutComments (.code .outside) rest := rfl
  have hsplit (t : List Char) : split .outside (';' :: t) = [] :: split .outside t := rfl
  rw [parts, withoutComments_append h.contained.no_line_comment (by simp),
    h.contained.ends_outside, hsemicolon, split_append h.contained.no_semicolon,
    h.contained.ends_outside, hsplit]
  simp [parts, h.trimmed]

/-- A blank in front is trimmed. -/
theorem trim_cons_blank {c : Char} (h : Text.isBlank c = true) (s : List Char) :
    Text.trim (c :: s) = Text.trim s := by
  have hstart : Text.trimStart (c :: s) = Text.trimStart s := List.dropWhile_cons_of_pos h
  rw [Text.trim, Text.trim, hstart]

/-- A line end in front of a script does not count. -/
theorem parts_newline (rest : List Char) : parts ('\n' :: rest) = parts rest := by
  -- a line end is no comment mark and no semicolon, so it is left to be trimmed
  have hcode : withoutComments (.code .outside) ('\n' :: rest) =
      '\n' :: withoutComments (.code .outside) rest := by
    rw [withoutComments, if_neg (by simp)]
    rfl
  have hsplit (t : List Char) :
      split .outside ('\n' :: t) = (split .outside t).modifyHead ('\n' :: ·) := rfl
  rw [parts, hcode, hsplit, parts]
  cases split .outside (withoutComments (.code .outside) rest) with
  | nil => rfl
  | cons first others =>
    rw [List.modifyHead_cons, List.map_cons, List.map_cons, trim_cons_blank (by decide)]

/-- A comment is dropped up to the end of its line. -/
theorem withoutComments_comment {text : List Char} (h : ∀ c ∈ text, isLineEnd c = false)
    (rest : List Char) : withoutComments .comment (text ++ '\n' :: rest) =
      '\n' :: withoutComments (.code .outside) rest := by
  induction text with
  | nil => rfl
  | cons c text ih =>
    rw [List.forall_mem_cons] at h
    rw [List.cons_append, withoutComments, h.1, if_neg (by decide), ih h.2]

/-- A comment line in front of a script does not count. -/
theorem parts_comment {text : List Char} (h : ∀ c ∈ text, isLineEnd c = false)
    (rest : List Char) : parts ('-' :: '-' :: (text ++ '\n' :: rest)) = parts rest := by
  -- the second dash is a part of the comment
  have hdash : ∀ c ∈ '-' :: text, isLineEnd c = false := List.forall_mem_cons.mpr ⟨by decide, h⟩
  rw [← parts_newline rest, parts, parts]
  rw [withoutComments, if_pos ⟨rfl, rfl, rfl⟩]
  rw [← List.cons_append, withoutComments_comment hdash]
  rw [withoutComments, if_neg (by simp)]
  rfl

/-- Statements on lines of their own, each with its semicolon, are the first pieces. -/
theorem parts_lines {ss : List String} (h : ∀ s ∈ ss, IsStatement s) (rest : List Char) :
    parts ((String.join (ss.map (· ++ ";\n"))).toList ++ rest) = ss ++ parts rest := by
  induction ss with
  | nil => simp
  | cons s ss ih =>
    rw [List.forall_mem_cons] at h
    have hline (tail : List Char) :
        (s ++ ";\n").toList ++ tail = s.toList ++ ';' :: '\n' :: tail := by
      simp
    rw [List.map_cons, String.join_cons, String.toList_append, List.append_assoc, hline,
      parts_statement h.1, parts_newline, ih h.2, List.cons_append]

/-! ### Texts that run -/

/-- A text that is read as some statements where a semicolon ends it, whatever
    follows. -/
def Runs (text : String) (ss : List String) : Prop :=
  ∀ rest, parts (text.toList ++ ';' :: rest) = ss ++ parts rest

namespace Runs

/-- A statement runs as itself. -/
theorem statement {s : String} (h : IsStatement s) : Runs s [s] :=
  parts_statement h

/-- One text behind another, with a semicolon and line ends between them. -/
theorem append {a b : String} {ss ts : List String} (ha : Runs a ss) (hb : Runs b ts) :
    Runs (a ++ ";\n" ++ b) (ss ++ ts) := by
  intro rest
  rw [String.toList_append, String.toList_append, List.append_assoc, List.append_assoc,
    show ";\n".toList = [';', '\n'] from rfl, List.cons_append, ha, List.singleton_append,
    parts_newline, hb, List.append_assoc]

/-- A text behind an empty line. -/
theorem behind_newline {a : String} {ss : List String} (ha : Runs a ss) :
    Runs ("\n" ++ a) ss := by
  intro rest
  rw [String.toList_append, show "\n".toList = ['\n'] from rfl, List.singleton_append,
    List.cons_append, parts_newline, ha]

/-- A text behind a comment line. -/
theorem behind_comment {text a : String} {ss : List String}
    (h : ∀ c ∈ text.toList, isLineEnd c = false) (ha : Runs a ss) :
    Runs ("--" ++ text ++ "\n" ++ a) ss := by
  intro rest
  have hcomment := parts_comment h (a.toList ++ ';' :: rest)
  rw [← ha, ← hcomment]
  simp

/-- Texts with a semicolon and an empty line between neighbours. -/
theorem joined {texts : List String} {sss : List (List String)} (hne : texts ≠ [])
    (h : List.Forall₂ Runs texts sss) : Runs (joined ";\n\n" texts) sss.flatten := by
  induction h with
  | nil => exact absurd rfl hne
  | @cons a ss texts sss ha htexts ih =>
    cases htexts with
    | nil => simpa using ha
    | cons =>
      -- the line end of the empty line is a blank in front of the next statement
      have hall := ha.append (ih (by simp)).behind_newline
      rwa [← String.append_assoc, @String.append_assoc a,
        show ";\n" ++ "\n" = ";\n\n" from rfl] at hall

/-- **A whole script.** A text that runs, with a semicolon behind it, has just its
    statements. -/
theorem statements_eq {text : String} {ss : List String} (h : Runs text ss) :
    statements (text ++ ";") = ss := by
  have hpieces : parts (text ++ ";").toList = ss ++ [""] := by
    rw [String.toList_append, show ";".toList = [';'] from rfl, h [], parts_nil]
  rw [statements, hpieces, if_pos (by simp), List.dropLast_concat]

end Runs

end RowPolicy.Sql
