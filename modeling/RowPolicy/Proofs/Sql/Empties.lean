import Mathlib.Data.List.Infix
import RowPolicy.Proofs.Sql.Spelling

namespace RowPolicy.Sql

/-!
# Empty lists in SQL text

SQL has neither an empty list behind `IN` nor an empty array without a type.  Whether a text
holds one is seen from left to right, by what stands right in front of each closing bracket:

* `ShownIn` — a pattern stands in a text, outside quotes;
* `Tail`, `Tail.next` — what a scan has just passed, and the next character;
* `Passes`, `Passes.append` — a text that a scan passes, with an empty array in it or without
  one, and texts one after the other;
* `Filled`, `Filled.joined` — a text that a scan passes from anywhere;
* `Filled.not_shownIn_list`, `Filled.shownIn_array` — the empty lists that stand in such a text.
-/

/-- A pattern stands in a text as it is, outside quotes. -/
def ShownIn (pattern s : String) : Prop := pattern.toList.map some <:+: bare .outside s.toList

instance (pattern s : String) : Decidable (ShownIn pattern s) :=
  inferInstanceAs (Decidable (_ <:+: _))

/-- What is shown in a text is shown in front of another one. -/
theorem shownIn_append_left {pattern a : String} (h : ShownIn pattern a) (b : String) :
    ShownIn pattern (a ++ b) := by
  rw [ShownIn, String.toList_append, bare_append]
  exact h.trans (List.prefix_append _ _).isInfix

/-- What is shown in a text is shown behind one that closes its quotes. -/
theorem shownIn_append_right {pattern a b : String} (ha : Place.outside.after a.toList = .outside)
    (h : ShownIn pattern b) : ShownIn pattern (a ++ b) := by
  rw [ShownIn, String.toList_append, bare_append, ha]
  exact h.trans (List.suffix_append _ _).isInfix

/-! ### The scan -/

/-- What stands right in front of the place that a scan has reached, as far as it counts. -/
inductive Tail where
  | other
  | space
  /-- An opening parenthesis, with a space in front of it. -/
  | opened
  /-- An opening square bracket. -/
  | square
  deriving DecidableEq, Repr

/-- The tail behind one more character, if that does not complete an empty list.  An empty
    array stops the scan only if it is `strict`. -/
def Tail.next (strict : Bool) : Tail → Option Char → Option Tail
  | opened, some ')' => none
  | square, some ']' => if strict then none else some other
  | space, some '(' => some opened
  | _, some ' ' => some space
  | _, some '[' => some square
  | _, _ => some other

/-- The tail behind a text. -/
def Tail.behind (strict : Bool) (t : Tail) (s : List Char) : Option Tail :=
  (bare .outside s).foldlM (Tail.next strict) t

/-- Two texts are scanned one after the other, if the first one closes its quotes. -/
theorem Tail.behind_append {strict : Bool} {t : Tail} {a : List Char}
    (ha : Place.outside.after a = .outside) (b : List Char) :
    t.behind strict (a ++ b) = (t.behind strict a).bind fun u => u.behind strict b := by
  rw [behind, bare_append, ha, List.foldlM_append]
  rfl

/-- A scan that passes a text has met neither of two characters right behind a tail that they
    complete an empty list of. -/
theorem Tail.not_infix {strict : Bool} {pattern : List (Option Char)}
    (hstop : ∀ t : Tail, pattern.foldlM (Tail.next strict) t = none) {t u : Tail} {s : List Char}
    (h : t.behind strict s = some u) : ¬ pattern <:+: bare .outside s := by
  rintro ⟨front, back, hsplit⟩
  -- whatever tail the scan has in front of the pattern, it stops within it
  rw [behind, ← hsplit, List.foldlM_append, List.foldlM_append] at h
  cases hfront : front.foldlM (Tail.next strict) t with
  | none =>
    rw [hfront] at h
    cases h
  | some v =>
    rw [hfront] at h
    simp [hstop v] at h

/-- A text that a scan passes from one tail to another.  No empty list stands in it, and an
    empty array if and only if `empty` holds. -/
structure Passes (t u : Tail) (s : String) (empty : Prop) : Prop where
  ends_outside : Place.outside.after s.toList = .outside
  behind_eq : ∀ strict, (strict = true → ¬ empty) → t.behind strict s.toList = some u
  shown : empty → ShownIn "ARRAY[]" s

namespace Passes

variable {t u v : Tail} {a b s : String} {p q : Prop}

/-- A text that has been scanned as it stands has no empty list in it. -/
theorem of_scan (h : Place.outside.after s.toList = .outside ∧
    ∀ strict, t.behind strict s.toList = some u) : Passes t u s False :=
  ⟨h.1, fun strict _ => h.2 strict, False.elim⟩

/-- Two texts in a row are passed if each is, and have an empty array if one of them has. -/
theorem append (ha : Passes t u a p) (hb : Passes u v b q) : Passes t v (a ++ b) (p ∨ q) where
  ends_outside := by
    rw [String.toList_append, after_append, ha.ends_outside, hb.ends_outside]
  behind_eq := by
    intro strict hstrict
    -- a strict scan is needed only if neither text has an empty array
    have hp := ha.behind_eq strict fun h hp => hstrict h (.inl hp)
    have hq := hb.behind_eq strict fun h hq => hstrict h (.inr hq)
    rw [String.toList_append, Tail.behind_append ha.ends_outside, hp, Option.bind_some, hq]
  shown := by
    rintro (hp | hq)
    · exact shownIn_append_left (ha.shown hp) b
    · exact shownIn_append_right ha.ends_outside (hb.shown hq)

/-- A property that says the same may be put in place of the one that is known. -/
theorem of_iff (h : Passes t u s p) (hpq : p ↔ q) : Passes t u s q := propext hpq ▸ h

/-- A text behind one without arrays. -/
theorem plain_append (ha : Passes t u a False) (hb : Passes u v b p) : Passes t v (a ++ b) p :=
  (ha.append hb).of_iff (iff_of_eq (false_or p))

/-- A text in front of one without arrays. -/
theorem append_plain (ha : Passes t u a p) (hb : Passes u v b False) : Passes t v (a ++ b) p :=
  (ha.append hb).of_iff (iff_of_eq (or_false p))

end Passes

/-- A space is passed, and remembered. -/
theorem passes_space : Passes .other .space " " False := .of_scan (by decide)

/-- The separator of items in a list. -/
theorem passes_comma : Passes .other .space ", " False := .of_scan (by decide)

/-- A bracket that closes what is not empty. -/
theorem passes_closing : Passes .other .other ")" False := .of_scan (by decide)

/-- A text that a scan passes from every tail, with nothing at its end that would count. -/
def Filled (s : String) (empty : Prop) : Prop := ∀ t, Passes t .other s empty

/-- Texts that a scan passes, one by one. -/
inductive FilledAll : List String → Prop → Prop where
  | nil : FilledAll [] False
  | cons {s : String} {ss : List String} {p q : Prop} (h : Filled s p) (hs : FilledAll ss q) :
    FilledAll (s :: ss) (p ∨ q)

/-! ### Texts without brackets -/

/-- A character that parts nothing is forgotten. -/
theorem Tail.next_of_not_isParting {c : Option Char} (h : ∀ d ∈ c, isParting d = false)
    (strict : Bool) (t : Tail) : t.next strict c = some .other := by
  have hne (d : Char) (hd : isParting d = true) : c ≠ some d := by
    rintro rfl
    rw [h d rfl] at hd
    cases hd
  have hspace := hne ' ' rfl
  have hopen := hne '(' rfl
  have hclose := hne ')' rfl
  have hsquare := hne '[' rfl
  have hend := hne ']' rfl
  unfold Tail.next
  split <;> simp_all

/-- A text without parting characters leaves nothing to remember. -/
theorem Tail.behind_of_inert {s : List Char} (h : Inert s) (strict : Bool) (t : Tail) :
    t.behind strict s = some .other := by
  have hne : bare .outside s ≠ [] := by
    cases s with
    | nil => exact absurd rfl h.ne_nil
    | cons c s => exact List.cons_ne_nil _ _
  have hshown : ∀ c ∈ bare .outside s, ∀ d ∈ c, isParting d = false := by
    rintro c hc d rfl
    exact h.no_parting d hc
  rw [behind]
  -- on the characters that show, of which there is at least one
  generalize bare .outside s = shown at hne hshown
  induction shown generalizing t with
  | nil => exact absurd rfl hne
  | cons c shown ih =>
    rw [List.forall_mem_cons] at hshown
    rw [List.foldlM_cons, Tail.next_of_not_isParting hshown.1]
    cases shown with
    | nil => rfl
    | cons d shown => exact ih .other (List.cons_ne_nil d shown) hshown.2

/-- A text without parting characters has no empty list in it. -/
theorem filled_of_inert {s : String} (h : Inert s.toList) : Filled s False := fun t =>
  .of_scan ⟨h.ends_outside, fun strict => Tail.behind_of_inert h strict t⟩

/-! ### Lists -/

namespace FilledAll

variable {s : String} {ss : List String} {p : Prop}

/-- Texts are passed with a separator between them, and have an empty array if one of them has. -/
theorem joined {sep : String} (hsep : Passes .other .space sep False) (h : FilledAll ss p)
    (hne : ss ≠ []) : Filled (joined sep ss) p := by
  induction h with
  | nil => exact absurd rfl hne
  | @cons s ss p q hs hss ih =>
    intro t
    cases hss with
    | nil => exact (hs t).of_iff (iff_of_eq (or_false p)).symm
    | @cons next ss q r hnext hss =>
      rw [joined_cons_cons]
      exact ((hs t).append_plain hsep).append (ih (List.cons_ne_nil next ss) .space)

/-- Items with commas between them and brackets around them. -/
theorem bracketed {front back : String} {t u v : Tail} (hfront : Passes t u front False)
    (h : FilledAll ss p) (hne : ss ≠ []) (hback : Passes .other v back False) :
    Passes t v (front ++ RowPolicy.joined ", " ss ++ back) p := by
  exact (hfront.plain_append (h.joined passes_comma hne u)).append_plain hback

end FilledAll

/-! ### Empty lists -/

namespace Filled

variable {s : String} {p : Prop}

/-- No empty list stands in a text that a scan passes. -/
theorem not_shownIn_list (h : Filled s p) : ¬ ShownIn "IN ()" s := by
  have hscan := (h .other).behind_eq false (by simp)
  have hnone : ¬ [some ' ', some '(', some ')'] <:+: bare .outside s.toList :=
    Tail.not_infix (by rintro (_ | _ | _ | _) <;> rfl) hscan
  intro hlist
  have hend : [some ' ', some '(', some ')'] <:+ "IN ()".toList.map some :=
    ⟨[some 'I', some 'N'], rfl⟩
  exact hnone (hend.isInfix.trans hlist)

/-- An empty array stands in a text that a scan passes if and only if the text was said to
    have one. -/
theorem shownIn_array (h : Filled s p) : ShownIn "ARRAY[]" s ↔ p := by
  constructor
  -- if there were none, a strict scan would get through, so the brackets are not shown
  · intro harray
    by_contra hp
    have hscan := (h .other).behind_eq true fun _ => hp
    have hnone : ¬ [some '[', some ']'] <:+: bare .outside s.toList :=
      Tail.not_infix (by rintro (_ | _ | _ | _) <;> rfl) hscan
    have hend : [some '[', some ']'] <:+ "ARRAY[]".toList.map some :=
      ⟨"ARRAY".toList.map some, rfl⟩
    exact hnone (hend.isInfix.trans harray)
  · exact (h .other).shown

end Filled

end RowPolicy.Sql
