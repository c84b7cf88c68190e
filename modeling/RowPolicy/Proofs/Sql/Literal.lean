import RowPolicy.Predicate.Sql
import RowPolicy.Proofs.Sql.Expr

namespace RowPolicy.Sql

/-!
# Names and literals as tokens

Whatever characters a name or a string holds, its written form is one token, and a
reference is the tokens of a path.

* `spells_quoteIdentifier`, `spells_quoteText` — what stands in quotes is one token;
* `spells_plain` — a word is one token;
* `quotedPath`, `escapedPath` — the names that a reference is written as;
* `spells_quoted`, `spells_escaped` — references are paths.
-/

/-! ### Quotes -/

/-- Inside quotes the lexer takes in a whole text with doubled marks. -/
theorem run_doubled (mark : Char) (s acc rest : List Char) :
    run (.quoted mark acc) (Quoted.doubled mark s ++ rest) =
      run (.quoted mark (acc ++ s)) rest := by
  induction s generalizing acc with
  | nil => simp [Quoted.doubled]
  | cons c s ih =>
    have hnext : acc ++ c :: s = (acc ++ [c]) ++ s := by simp
    rw [Quoted.doubled]
    split
    · rename_i hc
      subst hc
      -- the doubled mark closes the quotes and opens them again
      rw [List.cons_append, List.cons_append, run, LexState.step, if_pos rfl, Option.bind_some,
        run, LexState.step, if_pos rfl, Option.bind_some, ih, hnext]
      simp
    · rename_i hc
      rw [List.cons_append, run, LexState.step, if_neg hc, Option.bind_some, ih, hnext]
      simp

/-- What stands between two marks leaves the lexer behind the closing one. -/
theorem run_quoted {dotted : Bool} {mark : Char} (hmark : isMark mark = true) (s : List Char) :
    run (.start dotted) (Quoted.write mark s) = some ([], .closed mark s) := by
  have hbegin : LexState.begin dotted mark = some ([], .quoted mark []) := by
    have hclasses : isSpace mark = false ∧ isWordChar mark = false ∧ isOpChar mark = false := by
      rw [isMark, Bool.or_eq_true, beq_iff_eq, beq_iff_eq] at hmark
      obtain rfl | rfl := hmark <;> decide
    simp [LexState.begin, hclasses, hmark]
  rw [Quoted.write, run, LexState.step, hbegin, Option.bind_some, run_doubled, run,
    LexState.step, if_pos rfl]
  simp [run]

/-- A quoted name spells that name, behind a dot or not. -/
theorem spells_quoteIdentifier (dotted : Bool) (name : String) :
    SpellsFrom dotted (quoteIdentifier name) [.atom (.name name)] := by
  refine ⟨[], .closed '"' name.toList, [.atom (.name name)], ?_, ?_, by simp, rfl⟩
  · rw [quoteIdentifier, String.toList_ofList, run_quoted (by decide)]
  · simp [LexState.finish]

/-- A quoted text spells that text. -/
theorem spells_quoteText (text : String) : Spells (quoteText text) [.atom (.text text)] := by
  refine ⟨[], .closed '\'' text.toList, [.atom (.text text)], ?_, ?_, by simp, rfl⟩
  · rw [quoteText, String.toList_ofList, run_quoted (by decide)]
  · simp [LexState.finish]

/-! ### Words -/

/-- A character of words is no space. -/
theorem not_isSpace_of_isWordChar {c : Char} (h : isWordChar c = true) : isSpace c = false := by
  have hspaces : " \n\t\r".toList.all fun d => !isWordChar d := by decide
  rw [← Bool.not_eq_true]
  intro hspace
  have hmem : c ∈ " \n\t\r".toList := by simpa [isSpace, or_assoc] using hspace
  have hword := List.all_eq_true.mp hspaces c hmem
  rw [h] at hword
  cases hword

/-- Characters of words go on with a word. -/
theorem run_word {dotted : Bool} (acc : List Char) {s : List Char}
    (h : s.all isWordChar = true) :
    run (.word dotted acc) s = some ([], .word dotted (acc ++ s)) := by
  induction s generalizing acc with
  | nil => simp [run]
  | cons c s ih =>
    rw [List.all_cons, Bool.and_eq_true] at h
    rw [run, LexState.step, if_pos h.1, Option.bind_some, ih _ h.2]
    simp

/-- A word is one token. -/
theorem spells_plain (dotted : Bool) {s : String} (h : isPlainName s = true) :
    SpellsFrom dotted s [.atom ((Name.bare s).atom dotted)] := by
  refine ⟨[], .word dotted s.toList, [.atom ((Name.bare s).atom dotted)], ?_, ?_, by simp, rfl⟩
  · rw [isPlainName, Bool.and_eq_true] at h
    cases hs : s.toList with
    -- a plain name has a first character, and that one begins a word
    | nil => simp [hs] at h
    | cons c rest =>
      rw [hs, List.all_cons, Bool.and_eq_true] at h
      have hbegin : LexState.begin dotted c = some ([], .word dotted [c]) := by
        simp [LexState.begin, not_isSpace_of_isWordChar h.2.1, h.2.1]
      rw [run, LexState.step, hbegin, Option.bind_some, run_word [c] h.2.2]
      rfl
  · simp [LexState.finish, Name.atom]

/-! ### Names -/

/-- The name that an identifier is written as: bare if that is possible. -/
def identifierName (s : String) : Name := if isPlainName s then .bare s else .quoted s

/-- A name that is quoted only where it has to be spells a word or a name. -/
theorem spells_escapeIdentifier (dotted : Bool) (s : String) :
    SpellsFrom dotted (escapeIdentifier s) [.atom ((identifierName s).atom dotted)] := by
  unfold escapeIdentifier identifierName
  split
  · rename_i h
    exact spells_plain dotted h
  · exact spells_quoteIdentifier dotted s

/-- What is read up to the closing mark was written with its marks doubled. -/
theorem readBody_eq_some {mark : Char} {s t : List Char} (h : Quoted.readBody? mark s = some t) :
    s = Quoted.doubled mark t ++ [mark] := by
  induction s using Quoted.readBody?.induct mark generalizing t with
  | case1 => cases h
  | case2 =>
    rw [Quoted.readBody?, if_pos rfl] at h
    cases h
    rfl
  | case3 c hc =>
    rw [Quoted.readBody?, if_neg hc] at h
    cases h
  -- a doubled mark is read as one
  | case4 s ih =>
    rw [Quoted.readBody?, if_pos rfl, if_pos rfl] at h
    obtain ⟨u, hu, rfl⟩ := Option.map_eq_some_iff.mp h
    rw [ih hu, Quoted.doubled, if_pos rfl, List.cons_append, List.cons_append]
  | case5 d s hd =>
    -- a mark by itself ends the text, but more follows
    rw [Quoted.readBody?, if_pos rfl, if_neg hd] at h
    cases h
  -- any other character stands for itself
  | case6 c d s hc ih =>
    rw [Quoted.readBody?, if_neg hc] at h
    obtain ⟨u, hu, rfl⟩ := Option.map_eq_some_iff.mp h
    rw [ih hu, Quoted.doubled, if_neg hc, List.cons_append]

/-- A segment that stands for the content of quotes is written in these quotes. -/
theorem eq_quoteIdentifier {segment name : String}
    (h : Reference.quotedName? segment = some name) : segment = quoteIdentifier name := by
  obtain ⟨s, hs, rfl⟩ := Option.map_eq_some_iff.mp h
  rw [← String.toList_inj, quoteIdentifier, String.toList_ofList, String.toList_ofList]
  cases hsegment : segment.toList with
  | nil =>
    rw [hsegment] at hs
    cases hs
  | cons c rest =>
    rw [hsegment, Quoted.read?] at hs
    split at hs
    · rename_i hc
      rw [hc, readBody_eq_some hs, Quoted.write]
    · cases hs

/-- The name that a segment is written as, if other segments than `*` and quoted names
    are written as `form` says. -/
def segmentName (form : String → Name) (segment : String) : Name :=
  if segment = "*" then .star
  else match Reference.quotedName? segment with
    | some name => .quoted name
    | none => form segment

/-- A segment spells its name, in the form it is written in. -/
theorem spells_segment {dotted : Bool} {write : String → String} {form : String → Name}
    (hform : ∀ s, SpellsFrom dotted (write s) [.atom ((form s).atom dotted)]) (segment : String) :
    SpellsFrom dotted (Reference.writeSegment write segment)
      [.atom ((segmentName form segment).atom dotted)] := by
  unfold Reference.writeSegment segmentName
  by_cases hstar : segment = "*"
  · subst hstar
    rw [if_pos (.inl rfl), if_pos rfl]
    exact ⟨[], .op ['*'], [.atom (.op "*")], by cases dotted <;> rfl, rfl, by simp, rfl⟩
  · rw [if_neg hstar]
    -- a segment in quotes stands as it is, and that is how its name is quoted
    cases hname : Reference.quotedName? segment with
    | some name =>
      rw [if_pos (.inr rfl), eq_quoteIdentifier hname]
      exact spells_quoteIdentifier dotted name
    | none =>
      rw [if_neg (by simp [hstar])]
      exact hform segment

/-! ### Paths -/

/-- The names that a reference is written as. -/
def pathWith (form : String → Name) (reference : String) : List Name :=
  (Reference.segments reference).map (segmentName form)

/-- The names of a reference whose segments are all quoted. -/
def quotedPath (reference : String) : List Name := pathWith .quoted reference

/-- The names of a reference whose segments are quoted where they have to be. -/
def escapedPath (reference : String) : List Name := pathWith identifierName reference

/-- Segments with dots between them are a path. -/
theorem spells_segments {write : String → String} {form : String → Name}
    (hform : ∀ dotted s, SpellsFrom dotted (write s) [.atom ((form s).atom dotted)])
    (dotted : Bool) (segment : String) (rest : List String) :
    SpellsFrom dotted (joined "." ((segment :: rest).map (Reference.writeSegment write)))
      (Piece.tokensOf (pathPieces dotted ((segment :: rest).map (segmentName form)))) := by
  induction rest generalizing dotted segment with
  | nil => simpa [pathPieces, Piece.tokens] using spells_segment (hform dotted) segment
  | cons next rest ih =>
    have happend := (spells_segment (hform dotted) segment).append_dot (ih true next)
    simpa [joined_cons_cons, pathPieces, Piece.tokens] using happend

/-- A reference spells its path, in the form it is written in. -/
theorem spells_write {write : String → String} {form : String → Name}
    (hform : ∀ dotted s, SpellsFrom dotted (write s) [.atom ((form s).atom dotted)])
    (reference : String) :
    Spells (Reference.write write reference)
      (Piece.tokensOf (pathPieces false (pathWith form reference))) :=
  spells_segments hform false _ _

/-- A reference in quotes spells its path. -/
theorem spells_quoted (reference : String) :
    Spells (Reference.quoted reference)
      (Piece.tokensOf (pathPieces false (quotedPath reference))) :=
  spells_write spells_quoteIdentifier reference

/-- A reference that is quoted only where it has to be spells its path. -/
theorem spells_escaped (reference : String) :
    Spells (Reference.escaped reference)
      (Piece.tokensOf (pathPieces false (escapedPath reference))) :=
  spells_write spells_escapeIdentifier reference

/-! ### Numbers and instants -/

/-- A number as it is written. -/
def numeral (negative : Bool) (whole : String) (fraction : Option String) : String :=
  (if negative then "-" else "") ++ match fraction with
    | none => whole
    | some f => whole ++ "." ++ f

/-- Digits are a plain name. -/
theorem isPlainName_of_isDigits {s : String} (h : Expr.IsDigits s) : isPlainName s = true := by
  obtain ⟨hne, hdigits⟩ := h
  rw [isPlainName, Bool.and_eq_true, List.all_eq_true]
  refine ⟨by simp [hne], fun c hc => ?_⟩
  simp [isWordChar, Char.isAlphanum, hdigits c hc]

/-- A piece behind a sign, if it does not begin with an operator. -/
theorem Spells.negate {a : String} {ts : List Token} {c : Char} {rest : List Char}
    (hlist : a.toList = c :: rest) (hc : isOpChar c = false) (h : Spells a ts) :
    Spells ("-" ++ a) (.atom (.op "-") :: ts) := by
  obtain ⟨us, st, vs, hrun, hfinish, hst, rfl⟩ := h
  have hminus : run (.start false) ['-'] = some ([], .op ['-']) := by decide
  have hstep : (LexState.op ['-']).step c = LexState.beginBehind [.atom (.op "-")] c := by
    rw [LexState.step, if_neg (by simp [hc])]
    rfl
  refine ⟨.atom (.op "-") :: us, st, vs, ?_, hfinish, hst, rfl⟩
  rw [String.toList_append, hlist, show "-".toList = ['-'] from rfl, run_behind hminus hstep,
    ← hlist, hrun]
  rfl

/-- Digits with a sign and a point spell a number. -/
theorem spells_numeral {negative : Bool} {whole : String} {fraction : Option String}
    (hwhole : Expr.IsDigits whole) (hfraction : ∀ f ∈ fraction, Expr.IsDigits f) :
    Spells (numeral negative whole fraction)
      (Piece.tokensOf (Expr.number negative whole fraction).pieces) := by
  have hplain := spells_plain false (isPlainName_of_isDigits hwhole)
  -- the digits first, then the sign in front of them
  have hunsigned : Spells (numeral false whole fraction)
      (Piece.tokensOf (Expr.number false whole fraction).pieces) := by
    cases fraction with
    | none => simpa [numeral, Expr.pieces, Piece.word, Piece.tokens, Name.atom] using hplain
    | some f =>
      have hf := spells_plain true (isPlainName_of_isDigits (hfraction f rfl))
      simpa [numeral, Expr.pieces, Piece.word, Piece.tokens, Name.atom] using hplain.append_dot hf
  cases negative with
  | false => exact hunsigned
  | true =>
    -- the sign is a token of its own since a digit follows it
    obtain ⟨c, rest, hlist⟩ : ∃ c rest, whole.toList = c :: rest :=
      List.exists_cons_of_ne_nil (by simp [hwhole.1])
    have hop : isOpChar c = false := by
      have hdigit := hwhole.2 c (hlist ▸ List.mem_cons_self)
      exact not_isOpChar (.inr (by simp [isWordChar, Char.isAlphanum, hdigit]))
    have hhead : ∃ tail, (numeral false whole fraction).toList = c :: tail := by
      cases fraction <;> simp [numeral, hlist]
    obtain ⟨tail, htail⟩ := hhead
    have hnegate := Spells.negate htail hop hunsigned
    simpa [numeral, Expr.pieces, Piece.op, Piece.tokens] using hnegate

/-- A natural number is written in digits. -/
theorem isDigits_toDigits (n : Nat) : Expr.IsDigits (toString n) := by
  constructor
  · simp [← String.toList_inj]
  · intro c hc
    rw [Nat.toString_eq_ofList_toDigits, String.toList_ofList] at hc
    exact Nat.isDigit_of_mem_toDigits (by decide) (by decide) hc

/-- An integer as a number. -/
def intExpr (n : Int) : Expr := .number (decide (n < 0)) (toString n.natAbs) none

/-- An integer is written in digits, with a sign if it is negative. -/
theorem toString_eq_numeral (n : Int) :
    toString n = numeral (decide (n < 0)) (toString n.natAbs) none := by
  rw [Int.toString_eq_repr, Int.repr_eq_if, numeral, Nat.toString_eq_repr]
  by_cases hn : 0 ≤ n
  · have hnonneg : ¬ n < 0 := by omega
    simp [hn, hnonneg, show n.toNat = n.natAbs by omega]
  · have hneg : n < 0 := by omega
    simp [hn, hneg, show (-n).toNat = n.natAbs by omega]

/-- An integer spells its number. -/
theorem spells_int (n : Int) : Spells (toString n) (Piece.tokensOf (intExpr n).pieces) := by
  rw [toString_eq_numeral]
  exact spells_numeral (isDigits_toDigits _) (by simp)

/-- The digits of a decimal in front of the point, and those behind it if there are
    any. -/
def digitGroups (s : Decimal.Scientific) : String × Option String :=
  let ds := Decimal.digits s.coefficient
  let whole := ds.length + s.exponent
  if 0 ≤ s.exponent then (String.ofList (ds ++ List.replicate s.exponent.toNat '0'), none)
  else if 0 < whole then
    (String.ofList (ds.take whole.toNat), some (String.ofList (ds.drop whole.toNat)))
  else ("0", some (String.ofList (List.replicate (-whole).toNat '0' ++ ds)))

/-- A float as a number, or as the quoted name of a special value. -/
def floatExpr (x : Float) : Expr :=
  if x.isNaN then .text "NaN"
  else if x.isInf then .text (if 0 < x then "Infinity" else "-Infinity")
  else
    let groups := digitGroups ((Decimal.Binary.ofBits x.toBits).shortest .up)
    .number (decide ¬ x.toBits < 0x8000000000000000) groups.1 groups.2

/-- A list of digits that is not empty is a text of digits. -/
theorem isDigits_ofList {cs : List Char} (hne : cs ≠ []) (h : ∀ c ∈ cs, c.isDigit) :
    Expr.IsDigits (String.ofList cs) := by
  refine ⟨?_, by rwa [String.toList_ofList]⟩
  rw [← String.toList_inj.ne, String.toList_ofList]
  exact hne

/-- A decimal number is written in digits, in front of the point and behind it. -/
theorem isDigits_digitGroups (s : Decimal.Scientific) :
    Expr.IsDigits (digitGroups s).1 ∧ ∀ f ∈ (digitGroups s).2, Expr.IsDigits f := by
  have hne : Decimal.digits s.coefficient ≠ [] := Nat.toDigits_ne_nil
  have hdigits : ∀ c ∈ Decimal.digits s.coefficient, c.isDigit := fun c hc =>
    Nat.isDigit_of_mem_toDigits (by decide) (by decide) hc
  have hzeros (n : Nat) : ∀ c ∈ List.replicate n '0', c.isDigit := by
    intro c hc
    rw [List.eq_of_mem_replicate hc]
    rfl
  unfold digitGroups
  split
  -- a whole number, with zeros behind its digits
  · refine ⟨isDigits_ofList (by simp [hne]) ?_, by simp⟩
    exact List.forall_mem_append.mpr ⟨hdigits, hzeros _⟩
  · rename_i hexponent
    dsimp only
    split
    -- the point stands among the digits
    · rename_i hwhole
      refine ⟨isDigits_ofList ?_ fun c hc => hdigits c (List.mem_of_mem_take hc), ?_⟩
      · rw [← List.length_pos_iff_ne_nil, List.length_take]
        have hlength := List.length_pos_iff_ne_nil.mpr hne
        omega
      · rintro f ⟨⟩
        refine isDigits_ofList ?_ fun c hc => hdigits c (List.mem_of_mem_drop hc)
        rw [← List.length_pos_iff_ne_nil, List.length_drop]
        omega
    -- the point stands in front of them, so a zero comes first
    · have hzero : Expr.IsDigits "0" := isDigits_toDigits 0
      refine ⟨hzero, ?_⟩
      rintro f ⟨⟩
      refine isDigits_ofList (by simp [hne]) ?_
      exact List.forall_mem_append.mpr ⟨hzeros _, hdigits⟩

/-- A decimal number is written without an exponent. -/
theorem positional_eq (s : Decimal.Scientific) :
    s.positional false = (numeral false (digitGroups s).1 (digitGroups s).2).toList := by
  unfold Decimal.Scientific.positional digitGroups
  split
  · simp [numeral]
  · dsimp only
    split <;> simp [numeral]

/-- A float is written as the shortest decimal number for it, with its sign. -/
theorem write_eq (x : Float) :
    let groups := digitGroups ((Decimal.Binary.ofBits x.toBits).shortest .up)
    Decimal.Layout.plain.write x =
      numeral (decide ¬ x.toBits < 0x8000000000000000) groups.1 groups.2 := by
  intro groups
  -- sign by sign, as the digits are the same
  have hbody : Decimal.Layout.plain.write x = String.ofList
      (if x.toBits < 0x8000000000000000 then (numeral false groups.1 groups.2).toList
        else '-' :: (numeral false groups.1 groups.2).toList) := by
    rw [← positional_eq]
    rfl
  rw [hbody]
  by_cases hsign : x.toBits < 0x8000000000000000
  · simp [hsign]
  · rw [if_neg hsign, ← String.toList_inj, String.toList_ofList]
    simp [hsign, numeral]

/-- A float spells a number, or a text where it is none. -/
theorem spells_float (x : Float) :
    Spells (floatLiteral x) (Piece.tokensOf (floatExpr x).pieces) := by
  unfold floatLiteral floatExpr
  split
  · exact spells_quoteText "NaN"
  split
  · exact spells_quoteText _
  obtain ⟨hwhole, hfraction⟩ :=
    isDigits_digitGroups ((Decimal.Binary.ofBits x.toBits).shortest .up)
  rw [write_eq]
  exact spells_numeral hwhole hfraction

/-- An instant as a string that is cast to a timestamp. -/
def instantExpr (t : Instant) : Expr := .cast (.text t.text) "TIMESTAMP"

/-- An instant spells its text and its type. -/
theorem spells_instant (t : Instant) :
    Spells (instantLiteral t) (Piece.tokensOf (instantExpr t).pieces) := by
  have hquoted : run (.start false) (Quoted.write '\'' t.text.toList) = _ :=
    run_quoted (by decide) t.text.toList
  have hstep : (LexState.closed '\'' t.text.toList).step ':' =
      LexState.beginBehind [.atom (.text t.text)] ':' := by
    simp [LexState.step, LexState.finish]
  refine ⟨[.atom (.text t.text), .atom (.op "::")], .word false "TIMESTAMP".toList,
    [.atom (.word "TIMESTAMP")], ?_, rfl, by simp, ?_⟩
  · rw [instantLiteral, quoteText, String.toList_append, String.toList_ofList,
      show "::TIMESTAMP".toList = ':' :: ":TIMESTAMP".toList from rfl, run_behind hquoted hstep]
    rfl
  · simp [instantExpr, Expr.pieces, Piece.tokens, Piece.op, Piece.word]

end RowPolicy.Sql
