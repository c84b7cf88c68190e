import RowPolicy.Proofs.Sql.Expr

namespace RowPolicy.Sql

/-!
# Lists that are cut in one way

Where a list is cut at an element that its front does not have, the place is known.  So items
with separators between them can be told apart, the names of a path, and a table from its
alias.

* `split_unique`, `intercalate_injective` — one cut, and a cut at each separator;
* `pathPieces_injective`, `TableName.pieces_injective` — paths, and tables with an alias.
-/

/-! ### Cutting lists -/

/-- A list is cut in one way at an element that its front does not have. -/
theorem split_unique {α : Type} {P : α → Prop} {a a' b b' : List α} {x x' : α}
    (ha : ∀ p ∈ a, ¬ P p) (ha' : ∀ p ∈ a', ¬ P p) (hx : P x) (hx' : P x')
    (h : a ++ x :: b = a' ++ x' :: b') : a = a' ∧ x = x' ∧ b = b' := by
  induction a generalizing a' with
  | nil =>
    cases a' with
    | nil =>
      obtain ⟨rfl, rfl⟩ := List.cons.inj h
      exact ⟨rfl, rfl, rfl⟩
    -- the separator of one list would be among the items of the other
    | cons p a' =>
      obtain ⟨rfl, -⟩ := List.cons.inj h
      exact absurd hx (ha' x List.mem_cons_self)
  | cons p a ih =>
    cases a' with
    | nil =>
      obtain ⟨rfl, -⟩ := List.cons.inj h
      exact absurd hx' (ha p List.mem_cons_self)
    -- both have a first item, which is the same in both
    | cons q a' =>
      obtain ⟨rfl, htail⟩ := List.cons.inj h
      rw [List.forall_mem_cons] at ha ha'
      obtain ⟨rfl, hrest⟩ := ih ha.2 ha'.2 htail
      exact ⟨rfl, hrest⟩

/-- Items are joined with the separator between the first two. -/
theorem intercalate_cons_cons_eq {α : Type} (sep : α) (a b : List α) (rest : List (List α)) :
    [sep].intercalate (a :: b :: rest) = a ++ sep :: [sep].intercalate (b :: rest) := by
  rw [List.intercalate_cons_cons, List.append_assoc, List.singleton_append]

/-- What stands in items with separators between them is a separator or stands in an item. -/
theorem mem_intercalate {α : Type} {sep p : α} {items : List (List α)}
    (h : p ∈ [sep].intercalate items) : p = sep ∨ ∃ item ∈ items, p ∈ item := by
  induction items with
  | nil => cases h
  | cons item items ih =>
    cases items with
    -- the last item has no separator behind it
    | nil =>
      rw [List.intercalate_singleton] at h
      exact .inr ⟨item, List.mem_cons_self, h⟩
    | cons next rest =>
      rw [List.intercalate_cons_cons, List.append_assoc, List.mem_append,
        List.singleton_append, List.mem_cons] at h
      obtain h | h | h := h
      · exact .inr ⟨item, List.mem_cons_self, h⟩
      · exact .inl h
      · obtain h | ⟨other, hother, h⟩ := ih h
        · exact .inl h
        · exact .inr ⟨other, List.mem_cons_of_mem _ hother, h⟩

/-- Items with a separator between them, which none of them has, are cut in one way. -/
theorem intercalate_injective {α : Type} {sep : α} {as bs : List (List α)}
    (has : ∀ a ∈ as, a ≠ [] ∧ sep ∉ a) (hbs : ∀ b ∈ bs, b ≠ [] ∧ sep ∉ b)
    (h : [sep].intercalate as = [sep].intercalate bs) : as = bs := by
  have hne (a : List α) (rest : List (List α)) (ha : a ≠ []) :
      [sep].intercalate (a :: rest) ≠ [] := by
    cases rest with
    | nil => simpa using ha
    | cons b rest => simp
  induction as generalizing bs with
  | nil =>
    cases bs with
    | nil => rfl
    | cons b bs => exact absurd h.symm (hne b bs (hbs b List.mem_cons_self).1)
  | cons a as ih =>
    cases bs with
    | nil => exact absurd h (hne a as (has a List.mem_cons_self).1)
    | cons b bs =>
      rw [List.forall_mem_cons] at has hbs
      -- one of them has a separator where the other one has none, or both have one
      cases as with
      | nil =>
        cases bs with
        | nil => simpa using h
        | cons b' bs =>
          rw [List.intercalate_singleton, intercalate_cons_cons_eq] at h
          exact absurd (h ▸ List.mem_append_right b List.mem_cons_self) has.1.2
      | cons a' as =>
        cases bs with
        | nil =>
          rw [List.intercalate_singleton, intercalate_cons_cons_eq] at h
          exact absurd (h ▸ List.mem_append_right a List.mem_cons_self) hbs.1.2
        | cons b' bs =>
          rw [intercalate_cons_cons_eq, intercalate_cons_cons_eq] at h
          obtain ⟨rfl, -, hrest⟩ := split_unique (P := (· = sep))
            (fun p hp heq => has.1.2 (heq ▸ hp)) (fun p hp heq => hbs.1.2 (heq ▸ hp)) rfl rfl h
          rw [ih has.2 hbs.2 hrest]

/-- A function that tells the elements of two lists apart tells the lists apart. -/
theorem map_injective_on {α β : Type} {f : α → β} {xs ys : List α}
    (hf : ∀ x ∈ xs, ∀ y ∈ ys, f x = f y → x = y) (h : xs.map f = ys.map f) : xs = ys := by
  induction xs generalizing ys with
  | nil => exact (List.map_eq_nil_iff.mp h.symm).symm
  | cons x xs ih =>
    cases ys with
    | nil => cases h
    | cons y ys =>
      obtain ⟨hhead, htail⟩ := List.cons.inj h
      rw [hf x List.mem_cons_self y List.mem_cons_self hhead,
        ih (fun a ha b hb => hf a (List.mem_cons_of_mem x ha) b (List.mem_cons_of_mem y hb)) htail]

/-! ### Paths -/

/-- A name can be told from how it is written. -/
theorem Name.atom_injective {dotted : Bool} {m n : Name} (h : m.atom dotted = n.atom dotted) :
    m = n := by
  cases dotted <;> cases m <;> cases n <;> simp_all [Name.atom]

/-- A path can be told from its pieces. -/
theorem pathPieces_injective {dotted : Bool} {path path' : List Name}
    (h : pathPieces dotted path = pathPieces dotted path') : path = path' := by
  -- behind the first name, each name comes with its dot
  have htail (ms ns : List Name) (heq : (ms.flatMap fun m =>
      [Piece.atom .dot, .atom (m.atom true)]) = ns.flatMap fun n =>
        [Piece.atom .dot, .atom (n.atom true)]) : ms = ns := by
    induction ms generalizing ns with
    | nil => cases ns <;> simp_all
    | cons m ms ih =>
      cases ns with
      | nil => simp at heq
      | cons n ns =>
        simp only [List.flatMap_cons, List.cons_append, List.nil_append, List.cons.injEq,
          Piece.atom.injEq, true_and] at heq
        rw [Name.atom_injective heq.1, ih ns heq.2]
  cases path with
  | nil => cases path' <;> simp_all [pathPieces]
  | cons m ms =>
    cases path' with
    | nil => simp [pathPieces] at h
    | cons n ns =>
      simp only [pathPieces, List.cons.injEq, Piece.atom.injEq] at h
      rw [Name.atom_injective h.1, htail ms ns h.2]

/-- The pieces of a path are an odd number of tokens without brackets. -/
theorem length_pathPieces {path : List Name} (h : path ≠ []) (dotted : Bool) :
    (pathPieces dotted path).length % 2 = 1 := by
  cases path with
  | nil => exact absurd rfl h
  | cons n rest =>
    rw [pathPieces, List.length_cons, List.length_flatMap]
    simp

/-- A path that is accepted has a name. -/
theorem IsPath.ne_nil {path : List Name} (h : IsPath path) : path ≠ [] := by
  rintro rfl
  exact h

/-- A path with a name has a piece. -/
theorem pathPieces_ne_nil {dotted : Bool} {path : List Name} (h : path ≠ []) :
    pathPieces dotted path ≠ [] := by
  cases path with
  | nil => exact absurd rfl h
  | cons n rest => simp [pathPieces]

/-- A column that is accepted has a name. -/
theorem IsColumn.ne_nil {path : List Name} (h : IsColumn path) : path ≠ [] := by
  obtain h | ⟨table, -, rfl⟩ := h
  · exact h.ne_nil
  · simp

/-- A table can be told from its pieces, with its alias. -/
theorem TableName.pieces_injective {t t' : TableName} (ht : t.Fits) (ht' : t'.Fits)
    (h : t.pieces = t'.pieces) : t = t' := by
  obtain ⟨path, aliasName⟩ := t
  obtain ⟨path', aliasName'⟩ := t'
  -- an alias makes the number of pieces even
  have hlength := congrArg List.length h
  have hodd : (pathPieces false path).length % 2 = 1 := length_pathPieces ht.1.ne_nil false
  have hodd' : (pathPieces false path').length % 2 = 1 := length_pathPieces ht'.1.ne_nil false
  cases aliasName with
  | none =>
    cases aliasName' with
    | none =>
      simp only [TableName.pieces, Option.map_none, Option.toList_none, List.append_nil] at h
      rw [pathPieces_injective h]
    | some a =>
      simp [TableName.pieces] at hlength
      omega
  | some a =>
    cases aliasName' with
    | none =>
      simp [TableName.pieces] at hlength
      omega
    | some b =>
      obtain ⟨hpieces, halias⟩ := List.append_inj' h rfl
      have hpath : path = path' := pathPieces_injective hpieces
      have hatom : a.atom false = b.atom false := by simpa using halias
      rw [hpath, Name.atom_injective hatom]

end RowPolicy.Sql
