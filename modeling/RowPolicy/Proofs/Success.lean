import Mathlib.Data.List.Forall2

namespace RowPolicy

/-!
# Success — what a computation has done if it succeeds

Realizing and rendering may fail.  From a success of the whole follows the success
of each part, and from a failure the one part that failed:

* `ok_bind`, `bind_eq_ok`, `mapError_eq_ok` — one part after another, and a renamed failure;
* `mapM_eq_ok`, `mapM_eq_ok_map`, `exists_of_mem_right`, `forall₂_ok_iff` — the same part for
  each element of a list;
* `bind_eq_error`, `mapError_eq_error`, `mapM_eq_error` — the first part that fails.
-/

variable {α β ε ε' : Type}

/-- A result is handed on. -/
theorem ok_bind (a : α) (f : α → Except ε β) : (Except.ok a >>= f) = f a := rfl

/-- Two computations in a row succeed if the first one does, and the second one with its result. -/
theorem bind_eq_ok {x : Except ε α} {f : α → Except ε β} {b : β} :
    (x >>= f) = .ok b ↔ ∃ a, x = .ok a ∧ f a = .ok b := by
  cases x with
  | error e => simp [bind, Except.bind]
  | ok a => simp [bind, Except.bind]

/-- Nothing but the result itself is returned. -/
theorem pure_eq_ok {a b : α} : (pure a : Except ε α) = .ok b ↔ a = b := by
  simp [pure, Except.pure]

/-- A result is mapped if there is one. -/
theorem map_eq_ok {f : α → β} {x : Except ε α} {b : β} :
    f <$> x = .ok b ↔ ∃ a, x = .ok a ∧ b = f a := by
  cases x with
  | error e => simp [Functor.map, Except.map]
  | ok a => simp [Functor.map, Except.map, eq_comm]

/-- Naming the error otherwise does not change a result. -/
theorem mapError_eq_ok {g : ε → ε'} {x : Except ε α} {a : α} :
    x.mapError g = .ok a ↔ x = .ok a := by
  cases x with
  | error e => simp [Except.mapError]
  | ok b => simp [Except.mapError]

/-- A computation succeeds on a list if it does on each element, and its results are
    those of the elements, in order. -/
theorem mapM_eq_ok {f : α → Except ε β} {xs : List α} {ys : List β} :
    xs.mapM f = .ok ys ↔ List.Forall₂ (fun x y => f x = .ok y) xs ys := by
  induction xs generalizing ys with
  | nil =>
    rw [List.mapM_nil, pure_eq_ok, List.forall₂_nil_left_iff]
    exact eq_comm
  | cons x xs ih =>
    simp only [List.mapM_cons, bind_eq_ok, pure_eq_ok, ih, List.forall₂_cons_left_iff]
    constructor
    · rintro ⟨y, hy, ys', hys, rfl⟩
      exact ⟨y, ys', hy, hys, rfl⟩
    · rintro ⟨y, ys', hy, hys, rfl⟩
      exact ⟨y, hy, ys', hys, rfl⟩

/-- Each element on the right comes from one on the left. -/
theorem exists_of_mem_right {R : α → β → Prop} {xs : List α} {ys : List β}
    (h : List.Forall₂ R xs ys) {y : β} (hy : y ∈ ys) : ∃ x ∈ xs, R x y := by
  induction h with
  | nil => cases hy
  | @cons x z xs ys hxz _ ih =>
    rw [List.mem_cons] at hy
    obtain rfl | hy := hy
    · exact ⟨x, List.mem_cons_self, hxz⟩
    · obtain ⟨w, hw, hwy⟩ := ih hy
      exact ⟨w, List.mem_cons_of_mem _ hw, hwy⟩

/-- A list of results belongs to a list of elements if and only if all of them succeed, and
    each result is that of its element. -/
theorem forall₂_ok_iff {f : α → Except ε β} {xs : List α} {ys : List β} :
    List.Forall₂ (fun x y => f x = .ok y) xs ys ↔
      (∀ x ∈ xs, ∃ y, f x = .ok y) ∧ ys = xs.filterMap fun x => (f x).toOption := by
  induction xs generalizing ys with
  | nil => simp
  | cons x xs ih =>
    rw [List.forall₂_cons_left_iff, List.forall_mem_cons, List.filterMap_cons]
    constructor
    · rintro ⟨y, rest, hy, hrest, rfl⟩
      obtain ⟨hall, rfl⟩ := ih.mp hrest
      refine ⟨⟨⟨y, hy⟩, hall⟩, ?_⟩
      rw [hy]
      rfl
    · rintro ⟨⟨⟨y, hy⟩, hall⟩, rfl⟩
      refine ⟨y, _, hy, ih.mpr ⟨hall, rfl⟩, ?_⟩
      rw [hy]
      rfl

/-- Where success and result of each element are known, those of the list are. -/
theorem mapM_eq_ok_map {f : α → Except ε β} {succeeds : α → Prop} {result : α → β}
    (hf : ∀ x b, f x = .ok b ↔ succeeds x ∧ b = result x) {xs : List α} {ys : List β} :
    xs.mapM f = .ok ys ↔ (∀ x ∈ xs, succeeds x) ∧ ys = xs.map result := by
  induction xs generalizing ys with
  | nil =>
    rw [List.mapM_nil, pure_eq_ok]
    simp [eq_comm]
  | cons x xs ih =>
    simp only [List.mapM_cons, bind_eq_ok, pure_eq_ok, hf, ih, List.forall_mem_cons, List.map_cons]
    constructor
    · rintro ⟨_, ⟨hx, rfl⟩, _, ⟨hxs, rfl⟩, rfl⟩
      exact ⟨⟨hx, hxs⟩, rfl⟩
    · rintro ⟨⟨hx, hxs⟩, rfl⟩
      exact ⟨_, ⟨hx, rfl⟩, _, ⟨hxs, rfl⟩, rfl⟩

/-! ### Failures -/

/-- Two computations in a row fail with the first one's error, or with the second one's behind its
    result. -/
theorem bind_eq_error {x : Except ε α} {f : α → Except ε β} {e : ε} :
    (x >>= f) = .error e ↔ x = .error e ∨ ∃ a, x = .ok a ∧ f a = .error e := by
  cases x with
  | error e => simp [bind, Except.bind]
  | ok a => simp [bind, Except.bind]

/-- A renamed error comes from an error. -/
theorem mapError_eq_error {g : ε → ε'} {x : Except ε α} {e : ε'} :
    x.mapError g = .error e ↔ ∃ fault, x = .error fault ∧ g fault = e := by
  cases x with
  | error fault => simp [Except.mapError]
  | ok a => simp [Except.mapError]

/-- A computation fails on a list as it does on the first element on which it fails. -/
theorem mapM_eq_error {f : α → Except ε β} {xs : List α} {e : ε} :
    xs.mapM f = .error e ↔
      ∃ before x after, xs = before ++ x :: after ∧ (∀ y ∈ before, ∃ b, f y = .ok b) ∧
        f x = .error e := by
  induction xs with
  | nil => simp [pure, Except.pure]
  -- the first entry fails, or succeeds and one behind it fails
  | cons x xs ih =>
    have hpure (b : β) (bs : List β) : (pure (b :: bs) : Except ε (List β)) ≠ .error e :=
      fun h => nomatch h
    simp only [List.mapM_cons, bind_eq_error, ih, hpure, and_false, exists_false, or_false]
    constructor
    · rintro (hx | ⟨b, hb, before, y, after, rfl, hbefore, hy⟩)
      · exact ⟨[], x, xs, rfl, List.forall_mem_nil _, hx⟩
      · refine ⟨x :: before, y, after, rfl, ?_, hy⟩
        exact List.forall_mem_cons.mpr ⟨⟨b, hb⟩, hbefore⟩
    · rintro ⟨before, y, after, hsplit, hbefore, hy⟩
      -- the entry that fails is the first one, or stands behind it
      cases before with
      | nil =>
        obtain ⟨rfl, rfl⟩ := List.cons.inj hsplit
        exact .inl hy
      | cons z before =>
        obtain ⟨rfl, rfl⟩ := List.cons.inj hsplit
        rw [List.forall_mem_cons] at hbefore
        obtain ⟨b, hb⟩ := hbefore.1
        exact .inr ⟨b, hb, before, y, after, rfl, hbefore.2, hy⟩

end RowPolicy
