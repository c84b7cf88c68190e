import RowPolicy.Proofs.Sql.Spelling

namespace RowPolicy

/-!
# Literals, read back

The null value, truth values, integers, strings and arrays of them are written in such a way
that a reader which knows nothing but the text finds the value again, and stops right behind
it:

* `Quoted.split?` — what stands between quotes at the start of a text;
* `Operand.IsLiteral` — the values that are written as literals;
* `Operand.read?`, `Operand.readList?` — the literal, or the list of literals up to a bracket,
  at the start of a text;
* `Operand.Stops`, `Operand.ReadsBack` — a text in front of which every literal is complete,
  and a reader that finds a value in front of such texts;
* `Operand.literals_readBack` — literals and lists of them are read back.
-/

namespace Quoted

/-- The text in front of a closing mark, and what follows that mark; what stands behind the
    opening mark is read here. -/
def split? (mark : Char) : List Char → Option (List Char × List Char)
  | [] => none
  | [c] => if c = mark then some ([], []) else none
  | c :: d :: t =>
    if c = mark then
      if d = mark then (split? mark t).map fun p => (mark :: p.1, p.2) else some ([], d :: t)
    else (split? mark (d :: t)).map fun p => (c :: p.1, p.2)

/-- A text with its marks doubled is split off up to the closing mark. -/
theorem split_doubled {mark : Char} (s : List Char) {rest : List Char}
    (hrest : ∀ c ∈ rest.head?, c ≠ mark) :
    split? mark (doubled mark s ++ mark :: rest) = some (s, rest) := by
  -- the induction is on the text, whose marks are met in pairs; the closing one is alone
  induction s with
  | nil =>
    cases rest with
    | nil => simp [doubled, split?]
    | cons c rest => simp [doubled, split?, hrest c rfl]
  | cons c s ih =>
    rw [doubled]
    by_cases hc : c = mark
    · rw [if_pos hc, hc, List.cons_append, List.cons_append, split?, if_pos rfl, if_pos rfl, ih]
      rfl
    · -- what stands behind `c` is not empty, since the closing mark is there
      obtain ⟨d, t, hdt⟩ : ∃ d t, doubled mark s ++ mark :: rest = d :: t :=
        List.exists_cons_of_ne_nil (by simp)
      rw [if_neg hc, List.cons_append, hdt, split?, if_neg hc, ← hdt, ih]
      rfl

end Quoted

namespace Operand

/-! ### Literals -/

/-- The values that are written as literals: the null value, truth values, integers, strings
    and arrays of such values, nested as they may be. -/
inductive IsLiteral : Operand → Prop where
  | null : IsLiteral .null
  | bool (b : Bool) : IsLiteral (.bool b)
  | int (n : Int64) : IsLiteral (.int n)
  | text (s : String) : IsLiteral (.text s)
  | array {items : List Operand} (h : ∀ v ∈ items, IsLiteral v) : IsLiteral (.array items)

/-- A text that continues no literal in front of it: it begins neither with the mark of a
    string nor with a letter, a digit or an underscore. -/
def Stops (rest : List Char) : Prop := ∀ c ∈ rest.head?, c ≠ '\'' ∧ isWordChar c = false

/-- A bracket in which lists of literals end. -/
def IsClosing (close : Char) : Prop := close = ']' ∨ close = ')'

/-! ### The reader -/

/-- A reader of a value at the start of a text: the value and the text behind it. -/
abbrev Reader (α : Type) := List Char → Option (α × List Char)

/-- An integer of 64 bits, as its sign and its digits. -/
def int? (negative : Bool) (digits : List Char) : Option Operand :=
  let size := Nat.ofDigitChars 10 digits 0
  let n : Int := if negative then -size else size
  if digits ≠ [] ∧ digits.all Char.isDigit ∧ Int64.minValue.toInt ≤ n ∧ n ≤ Int64.maxValue.toInt then
    some (.int (Int64.ofInt n))
  else none

/-- The value of a word that is a keyword or a number. -/
def word? (word : List Char) : Option Operand :=
  if word = "NULL".toList then some .null
  else if word = "TRUE".toList then some (.bool true)
  else if word = "FALSE".toList then some (.bool false)
  else int? false word

/-- A literal that is no array. -/
def scalar? : Reader Operand
  | [] => none
  | c :: s =>
    if c = '\'' then (Quoted.split? '\'' s).map fun p => (.text (String.ofList p.1), p.2)
    else if c = '-' then (int? true (s.takeWhile isWordChar)).map (·, s.dropWhile isWordChar)
    else (word? ((c :: s).takeWhile isWordChar)).map (·, (c :: s).dropWhile isWordChar)

/-- The items from the next one on, with a comma and a space between neighbours, up to a
    closing bracket.  `fuel` is at least the number of items. -/
def items? (item : Reader Operand) (close : Char) : (fuel : Nat) → Reader (List Operand)
  | 0, _ => none
  | fuel + 1, s =>
    (item s).bind fun p =>
      if p.2.head? = some close then some ([p.1], p.2.tail)
      else if ", ".toList <+: p.2 then
        (items? item close fuel (p.2.drop 2)).map fun q => (p.1 :: q.1, q.2)
      else none

/-- All items up to a closing bracket. -/
def list? (item : Reader Operand) (close : Char) : Reader (List Operand) := fun s =>
  if s.head? = some close then some ([], s.tail) else items? item close s.length s

/-- A literal.  `depth` bounds the nesting of arrays. -/
def literal? : (depth : Nat) → Reader Operand
  | 0, s => scalar? s
  | depth + 1, s =>
    if "ARRAY[".toList <+: s then
      (list? (literal? depth) ']' (s.drop 6)).map fun p => (.array p.1, p.2)
    else scalar? s

/-- The literal at the start of a text. -/
def read? : Reader Operand := fun s => literal? s.length s

/-- The literals up to a closing bracket. -/
def readList? (close : Char) : Reader (List Operand) := fun s =>
  list? (literal? s.length) close s

/-- A reader finds a value again where it is written, and stops behind it. -/
def ReadsBack (item : Reader Operand) (v : Operand) : Prop :=
  ∀ rest, Stops rest → item (v.sql.toList ++ rest) = some (v, rest)

/-! ### Words, numbers and strings -/

/-- The word at the start of a text ends where the next text begins. -/
theorem takeWhile_word {word rest : List Char} (hword : word.all isWordChar = true)
    (hrest : Stops rest) :
    (word ++ rest).takeWhile isWordChar = word ∧ (word ++ rest).dropWhile isWordChar = rest := by
  have hall : ∀ c ∈ word, isWordChar c = true := List.all_eq_true.mp hword
  rw [List.takeWhile_append_of_pos hall, List.dropWhile_append_of_pos hall]
  cases rest with
  | nil => exact ⟨List.append_nil word, rfl⟩
  | cons c rest =>
    have hc : isWordChar c = false := (hrest c rfl).2
    simp [hc]

/-- A word is read as what it stands for, if nothing continues it. -/
theorem scalar_word {word : List Char} {v : Operand} (hne : word ≠ [])
    (hword : word.all isWordChar = true) (hv : word? word = some v) {rest : List Char}
    (hrest : Stops rest) : scalar? (word ++ rest) = some (v, rest) := by
  obtain ⟨c, s, rfl⟩ := List.exists_cons_of_ne_nil hne
  have hc : isWordChar c = true := List.all_eq_true.mp hword c List.mem_cons_self
  -- a word begins with neither a quote nor a sign
  have hmark : c ≠ '\'' := by
    rintro rfl
    cases hc
  have hminus : c ≠ '-' := by
    rintro rfl
    cases hc
  obtain ⟨htake, hdrop⟩ := takeWhile_word hword hrest
  rw [List.cons_append] at htake hdrop ⊢
  rw [scalar?, if_neg hmark, if_neg hminus, htake, hdrop, hv]
  rfl

/-- The digits of an integer, with its sign, are read as that integer. -/
theorem int_digits {n : Int64} {negative : Bool} {size : Nat}
    (hn : n.toInt = if negative then -(size : Int) else size) :
    int? negative (Nat.toDigits 10 size) = some (.int n) := by
  have hdigits : (Nat.toDigits 10 size).all Char.isDigit = true :=
    List.all_eq_true.mpr fun c hc => Nat.isDigit_of_mem_toDigits (by decide) (by decide) hc
  rw [int?, Nat.ofDigitChars_ten_toDigits, ← hn, if_pos, Int64.ofInt_toInt]
  exact ⟨Nat.toDigits_ne_nil, hdigits, Int64.minValue_le_toInt n, Int64.toInt_le n⟩

/-- Digits are no keyword. -/
theorem word_digits {word : List Char} (hdigits : ∀ c ∈ word, c.isDigit = true) :
    word? word = int? false word := by
  have hkeyword (keyword : List Char) (hletter : keyword.all Char.isDigit = false) :
      word ≠ keyword := by
    rintro rfl
    rw [List.all_eq_true.mpr hdigits] at hletter
    cases hletter
  rw [word?, if_neg (hkeyword _ rfl), if_neg (hkeyword _ rfl), if_neg (hkeyword _ rfl)]

/-- An integer is read back, with its sign. -/
theorem scalar_int (n : Int64) {rest : List Char} (hrest : Stops rest) :
    scalar? ((Operand.int n).sql.toList ++ rest) = some (.int n, rest) := by
  have hdigits (size : Nat) : ∀ c ∈ Nat.toDigits 10 size, c.isDigit = true := fun c hc =>
    Nat.isDigit_of_mem_toDigits (by decide) (by decide) hc
  have hword (size : Nat) : (Nat.toDigits 10 size).all isWordChar = true := by
    refine List.all_eq_true.mpr fun c hc => ?_
    simp [isWordChar, Char.isAlphanum, hdigits size c hc]
  rw [Operand.sql, Int.toString_eq_repr, Int.repr_eq_if]
  -- the sign is read by itself, and the digits behind it
  by_cases hn : 0 ≤ n.toInt
  · have hint : word? (Nat.toDigits 10 n.toInt.toNat) = some (.int n) := by
      rw [word_digits (hdigits _)]
      exact int_digits (by rw [if_neg Bool.false_ne_true]; omega)
    rw [if_pos hn, Nat.toList_repr]
    exact scalar_word Nat.toDigits_ne_nil (hword _) hint hrest
  · have hint : int? true (Nat.toDigits 10 (-n.toInt).toNat) = some (.int n) :=
      int_digits (by rw [if_pos rfl]; omega)
    obtain ⟨htake, hdrop⟩ := takeWhile_word (hword (-n.toInt).toNat) hrest
    rw [if_neg hn, String.toList_append, Nat.toList_repr, show "-".toList = ['-'] from rfl,
      List.append_assoc, List.singleton_append, scalar?, if_neg (by decide), if_pos rfl, htake,
      hdrop, hint]
    rfl

/-- A text is read back, whatever quotes it has in it. -/
theorem scalar_text (s : String) {rest : List Char} (hrest : Stops rest) :
    scalar? ((Operand.text s).sql.toList ++ rest) = some (.text s, rest) := by
  have hread := Quoted.split_doubled s.toList fun c hc => (hrest c hc).1
  have htext : (Operand.text s).sql.toList ++ rest =
      '\'' :: (Quoted.doubled '\'' s.toList ++ '\'' :: rest) := by
    rw [Operand.sql, quoteText, String.toList_ofList, Quoted.write, List.cons_append,
      List.append_assoc, List.singleton_append]
  rw [htext, scalar?, if_pos rfl, hread, Option.map_some, String.ofList_toList]

/-! ### Lists -/

/-- Operands are written one by one. -/
theorem sqls_eq_map (vs : List Operand) : sqls vs = vs.map Operand.sql := by
  induction vs with
  | nil => rfl
  | cons v vs ih => rw [sqls, ih, List.map_cons]

/-- There are no more items than characters in what is joined of them, but for one. -/
theorem length_le_joined (items : List String) : items.length ≤ (joined ", " items).length + 1 := by
  induction items with
  | nil => exact Nat.zero_le _
  | cons item items ih =>
    cases items with
    | nil => simp
    | cons next items =>
      have hsep : ", ".length = 2 := rfl
      rw [joined_cons_cons, String.length_append, String.length_append]
      simp only [List.length_cons] at ih ⊢
      omega

/-- Behind an item and its separator the other items are read. -/
theorem items_joined {item : Reader Operand} {close : Char} (hclose : close ≠ ',')
    (hstops : Stops [close]) (v : Operand) (vs : List Operand)
    (h : ∀ w ∈ v :: vs, ReadsBack item w) {fuel : Nat} (hfuel : (v :: vs).length ≤ fuel)
    (rest : List Char) :
    items? item close fuel ((joined ", " (sqls (v :: vs))).toList ++ close :: rest) =
      some (v :: vs, rest) := by
  induction vs generalizing v fuel with
  | nil =>
    obtain ⟨fuel, rfl⟩ : ∃ k, fuel = k + 1 :=
      Nat.exists_eq_succ_of_ne_zero (Nat.ne_zero_of_lt hfuel)
    have hv : item (v.sql.toList ++ close :: rest) = some (v, close :: rest) :=
      h v List.mem_cons_self _ hstops
    -- the last item is followed by the bracket
    rw [sqls, sqls, joined_singleton, items?, hv]
    simp
  | cons w vs ih =>
    obtain ⟨fuel, rfl⟩ : ∃ k, fuel = k + 1 :=
      Nat.exists_eq_succ_of_ne_zero (Nat.ne_zero_of_lt hfuel)
    rw [List.forall_mem_cons] at h
    have hothers := ih w h.2 (Nat.le_of_succ_le_succ hfuel)
    -- any other one by a comma and the rest of the list
    generalize hbehind : (joined ", " (sqls (w :: vs))).toList ++ close :: rest = behind at hothers
    have htext : (joined ", " (sqls (v :: w :: vs))).toList ++ close :: rest =
        v.sql.toList ++ (',' :: ' ' :: behind) := by
      rw [sqls, sqls, joined_cons_cons, ← sqls, ← hbehind, String.toList_append,
        String.toList_append, show ", ".toList = [',', ' '] from rfl, List.append_assoc,
        List.append_assoc]
      rfl
    have hv : item (v.sql.toList ++ ',' :: ' ' :: behind) = some (v, ',' :: ' ' :: behind) :=
      h.1 _ (by simp [Stops, isWordChar])
    have hcomma : ", ".toList <+: ',' :: ' ' :: behind := ⟨behind, rfl⟩
    rw [htext, items?, hv, Option.bind_some, if_neg (by simp [Ne.symm hclose]), if_pos hcomma]
    simp [hothers]

/-- A list of items that are read back is read up to its bracket, and may be empty. -/
theorem list_joined {item : Reader Operand} {close : Char} (hclose : close ≠ ',')
    (hstops : Stops [close]) (hnone : ∀ s, item (close :: s) = none) {vs : List Operand}
    (h : ∀ v ∈ vs, ReadsBack item v) (rest : List Char) :
    list? item close ((joined ", " (sqls vs)).toList ++ close :: rest) = some (vs, rest) := by
  rw [list?]
  cases vs with
  | nil => exact if_pos rfl
  | cons v vs =>
    have hlength : (v :: vs).length ≤
        ((joined ", " (sqls (v :: vs))).toList ++ close :: rest).length := by
      have hle := length_le_joined (sqls (v :: vs))
      rw [sqls_eq_map, List.length_map, ← sqls_eq_map] at hle
      rw [List.length_append, String.length_toList, List.length_cons (a := close)]
      omega
    have hitems := items_joined hclose hstops v vs h hlength rest
    rw [if_neg, hitems]
    -- no item is read where the bracket stands
    intro hhead
    obtain ⟨s, hs⟩ : ∃ s, (joined ", " (sqls (v :: vs))).toList ++ close :: rest = close :: s :=
      List.head?_eq_some_iff.mp hhead
    rw [hs, List.length_cons, items?, hnone] at hitems
    cases hitems

/-! ### Arrays -/

/-- An item is no longer than what it is joined into. -/
theorem length_le_length_joined {sep item : String} {items : List String} (h : item ∈ items) :
    item.length ≤ (joined sep items).length := by
  induction items with
  | nil => cases h
  | cons first items ih =>
    cases items with
    | nil => exact Nat.le_of_eq (by rw [List.mem_singleton.mp h, joined_singleton])
    | cons next items =>
      rw [joined_cons_cons, String.length_append, String.length_append]
      obtain rfl | h := List.mem_cons.mp h
      · omega
      · have hle := ih h
        omega

/-- A literal is no longer than the list it stands in. -/
theorem length_le_length_sqls {v : Operand} {vs : List Operand} (h : v ∈ vs) :
    v.sql.length ≤ (joined ", " (sqls vs)).length := by
  apply length_le_length_joined
  rw [sqls_eq_map]
  exact List.mem_map_of_mem h

/-- No literal begins with a bracket. -/
theorem literal_closing {close : Char} (hclose : IsClosing close) (depth : Nat) (s : List Char) :
    literal? depth (close :: s) = none := by
  have hscalar : scalar? (close :: s) = none := by
    obtain rfl | rfl := hclose <;> rfl
  cases depth with
  | zero => exact hscalar
  | succ depth =>
    rw [literal?, if_neg, hscalar]
    rintro ⟨t, ht⟩
    obtain ⟨rfl, -⟩ := List.cons.inj ht
    obtain h | h := hclose <;> cases h

/-- No word or number begins like an array. -/
theorem literal_scalar {s : List Char} {p : Operand × List Char} (h : scalar? s = some p)
    (depth : Nat) : literal? depth s = some p := by
  cases depth with
  | zero => exact h
  | succ depth =>
    rw [literal?, if_neg, h]
    rintro ⟨rest, rfl⟩
    have hnone : scalar? ("ARRAY[".toList ++ rest) = none := rfl
    rw [hnone] at h
    cases h

/-- A list of literals is read up to its bracket. -/
theorem list_literals {close : Char} (hclose : IsClosing close) {depth : Nat}
    {items : List Operand} (h : ∀ v ∈ items, ReadsBack (literal? depth) v) (rest : List Char) :
    list? (literal? depth) close ((joined ", " (sqls items)).toList ++ close :: rest) =
      some (items, rest) := by
  have hmarks : close ≠ ',' ∧ close ≠ '\'' ∧ isWordChar close = false := by
    obtain rfl | rfl := hclose <;> decide
  have hstops : Stops [close] := by
    rintro c ⟨⟩
    exact hmarks.2
  exact list_joined hmarks.1 hstops (literal_closing hclose depth) h rest

/-- An array of literals that are read back is read back, with one more level. -/
theorem array_literals {depth : Nat} {items : List Operand}
    (h : ∀ v ∈ items, ReadsBack (literal? depth) v) :
    ReadsBack (literal? (depth + 1)) (.array items) := by
  intro rest hrest
  have htext : (Operand.array items).sql.toList ++ rest =
      "ARRAY[".toList ++ ((joined ", " (sqls items)).toList ++ ']' :: rest) := by
    rw [Operand.sql, arrayLiteral, String.toList_append, String.toList_append,
      show "]".toList = [']'] from rfl, List.append_assoc, List.append_assoc,
      List.singleton_append]
  have hbehind : ("ARRAY[".toList ++ ((joined ", " (sqls items)).toList ++ ']' :: rest)).drop 6 =
      (joined ", " (sqls items)).toList ++ ']' :: rest := rfl
  rw [htext, literal?, if_pos (List.prefix_append _ _), hbehind, list_literals (.inl rfl) h,
    Option.map_some]

/-- The reader stops behind a literal that is not nested deeper than it looks. -/
theorem literal_sql {v : Operand} (h : v.IsLiteral) {depth : Nat} (hdepth : v.sql.length ≤ depth) :
    ReadsBack (literal? depth) v := by
  induction h generalizing depth with
  | null =>
    exact fun rest hrest => literal_scalar (scalar_word (by decide) (by decide) rfl hrest) depth
  | bool b =>
    intro rest hrest
    have hword : scalar? ((Operand.bool b).sql.toList ++ rest) = some (.bool b, rest) := by
      cases b <;> exact scalar_word (by decide) (by decide) rfl hrest
    exact literal_scalar hword depth
  | int n => exact fun rest hrest => literal_scalar (scalar_int n hrest) depth
  | text s => exact fun rest hrest => literal_scalar (scalar_text s hrest) depth
  | @array items h ih =>
    -- the items are shorter than the array, by its brackets
    have hlength : (Operand.array items).sql.length = (joined ", " (sqls items)).length + 7 := by
      have hopen : "ARRAY[".length = 6 := rfl
      have hclose : "]".length = 1 := rfl
      rw [Operand.sql, arrayLiteral, String.length_append, String.length_append]
      omega
    obtain ⟨depth, rfl⟩ : ∃ k, depth = k + 1 := ⟨depth - 1, by omega⟩
    refine array_literals fun v hv => ih v hv ?_
    have hle := length_le_length_sqls hv
    omega

/-! ### Whole texts -/

/-- Every literal is read back, as deep as it is nested. -/
theorem read_sql {v : Operand} (h : v.IsLiteral) : ReadsBack read? v := by
  intro rest hrest
  have hdepth : v.sql.length ≤ (v.sql.toList ++ rest).length := by
    rw [List.length_append, String.length_toList]
    omega
  exact literal_sql h hdepth rest hrest

/-- Every list of literals is read back up to its bracket. -/
theorem readList_sqls {close : Char} (hclose : IsClosing close) {items : List Operand}
    (h : ∀ v ∈ items, v.IsLiteral) (rest : List Char) :
    readList? close ((joined ", " (sqls items)).toList ++ close :: rest) = some (items, rest) := by
  refine list_literals hclose (fun v hv => literal_sql (h v hv) ?_) rest
  have hle := length_le_length_sqls hv
  rw [List.length_append, String.length_toList]
  omega

/-- **Literals, read back.** Whatever stands behind a literal, unless it continues that
    literal, the reader finds the value again and stops where it ends, so no two values are
    written alike.  In the same way it finds the items of an array, of a list behind `IN` and of
    a list that a column is to contain, each by itself. -/
theorem literals_readBack :
    (∀ v : Operand, v.IsLiteral → ∀ rest, Stops rest →
        read? (v.sql.toList ++ rest) = some (v, rest)) ∧
      (∀ v w : Operand, v.IsLiteral → w.IsLiteral → v.sql = w.sql → v = w) ∧
      (∀ close, IsClosing close → ∀ items : List Operand, (∀ v ∈ items, v.IsLiteral) → ∀ rest,
        readList? close ((joined ", " (sqls items)).toList ++ close :: rest) = some (items, rest)) ∧
      ∀ column, ∀ items : List Operand, items ≠ [] → (∀ v ∈ items, v.IsLiteral) →
        (∃ list, (Predicate.member column .inside (.values items)).sql =
            Reference.quoted column ++ " IN (" ++ list ∧
          readList? ')' list.toList = some (items, [])) ∧
        ∃ list, (Predicate.member column .contains (.values items)).sql =
            Reference.quoted column ++ " @> ARRAY[" ++ list ∧
          readList? ']' list.toList = some (items, []) := by
  refine ⟨fun v hv => read_sql hv, fun v w hv hw heq => ?_,
    fun close hclose items h => readList_sqls hclose h, fun column items hne h => ?_⟩
  · have hend : Stops [] := by simp [Stops]
    have hread := read_sql hv [] hend
    rw [heq, read_sql hw [] hend] at hread
    cases hread
    rfl
  · obtain ⟨v, vs, rfl⟩ := List.exists_cons_of_ne_nil hne
    -- the list with its closing bracket
    have hlist (close : String) {c : Char} (hc : close.toList = [c]) (hclose : IsClosing c) :
        readList? c (joined ", " (sqls (v :: vs)) ++ close).toList = some (v :: vs, []) := by
      rw [String.toList_append, hc]
      exact readList_sqls hclose h []
    refine ⟨⟨_, ?_, hlist ")" rfl (.inr rfl)⟩, _, ?_, hlist "]" rfl (.inl rfl)⟩
    · rw [Predicate.sql, Source.sql, sqls, Membership.listSql]
      · simp only [String.append_assoc]
      · simp
    · rw [Predicate.sql, Source.sql, sqls, Membership.listSql, arrayLiteral]
      · simp only [String.append_assoc]
        rfl
      · simp

/-- Strings that look like other literals, an empty array and the least integer. -/
theorem literals_readBack_nested :
    let inner : Operand := .array [.null, .int Int64.minValue, .array []]
    let items : List Operand := [.text "ARRAY['a', NULL]", inner, .text "', '"]
    Stops "::text[]".toList ∧
      joined ", " (sqls items) ++ ")" =
        "'ARRAY[''a'', NULL]', ARRAY[NULL, -9223372036854775808, ARRAY[]], ''', ''')" ∧
      read? ((Operand.array items).sql.toList ++ "::text[]".toList) =
        some (.array items, "::text[]".toList) ∧
      readList? ')' ((joined ", " (sqls items)).toList ++ [')', ' ']) = some (items, [' ']) := by
  intro inner items
  have hinner : inner.IsLiteral := .array (by simp [IsLiteral.null, IsLiteral.int, IsLiteral.array])
  -- the strings in it look like lists, but are read as strings
  have hitems : ∀ v ∈ items, v.IsLiteral := by simp [items, IsLiteral.text, hinner]
  have hstops : Stops "::text[]".toList := by simp [Stops, isWordChar]
  obtain ⟨hread, -, hlist, -⟩ := literals_readBack
  exact ⟨hstops, by decide +kernel, hread _ (.array hitems) _ hstops,
    hlist ')' (.inr rfl) items hitems [' ']⟩

end Operand

end RowPolicy
