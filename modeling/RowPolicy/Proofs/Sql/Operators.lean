import RowPolicy.Proofs.Sql.Rank

namespace RowPolicy.Sql

/-!
# Operators are read in one way

An operator stands behind its first operand where the rank is lowest, so that operand, the
operator and what follows can be cut out of the pieces of an expression.  If the operands are
read in one way only, so is the expression.

* `ReadAlone` — no other expression that may stand in the same place is written alike;
* `listed_injective` — the items of a list are told apart one by one;
* `cut`, `cut_eq` — an expression at its operator;
* `readAlone_chain`, `readAlone_compare`, `readAlone_membership`, `readAlone_cast` and the
  others — one lemma per level.
-/

open Sql.Expr Sql.Piece

/-! ### One reading -/

/-- Whether two expressions may stand in one place: both are values, sources or
    queries. -/
def SameKind (e e' : Expr) : Prop :=
  (1 ≤ e.level ∧ 1 ≤ e'.level) ∨ (e.IsSource ∧ e'.IsSource) ∨ (e.IsQuery ∧ e'.IsQuery)

/-- No other expression that may stand in the same place is written alike. -/
def ReadAlone (e : Expr) : Prop :=
  ∀ e', e'.Everywhere Fits → SameKind e e' → e.pieces = e'.pieces → e = e'

/-- Items of a list are told apart if they are told apart one by one. -/
theorem listed_injective {es es' : List Expr} (hes : ∀ e ∈ es, e.Everywhere Fits ∧ 1 ≤ e.level)
    (hes' : ∀ e ∈ es', e.Everywhere Fits ∧ 1 ≤ e.level) (halone : ∀ e ∈ es, ReadAlone e)
    (h : listed (piecesOf es) = listed (piecesOf es')) : es = es' := by
  -- no item is empty, and none has a comma outside brackets
  have hitems {xs : List Expr} (hxs : ∀ e ∈ xs, e.Everywhere Fits ∧ 1 ≤ e.level) :
      ∀ ps ∈ piecesOf xs, ps ≠ [] ∧ Piece.atom .comma ∉ ps := by
    intro ps hps
    rw [piecesOf_eq_map] at hps
    obtain ⟨e, he, rfl⟩ := List.mem_map.mp hps
    obtain ⟨hfits, hlevel⟩ := hxs e he
    refine ⟨pieces_ne_nil hfits.here, fun hcomma => ?_⟩
    have hrank := level_le_rank hfits _ hcomma
    rw [rank_comma] at hrank
    omega
  -- so the items are the same, and each of them is read as itself
  have hpieces := intercalate_injective (hitems hes) (hitems hes') h
  rw [piecesOf_eq_map, piecesOf_eq_map] at hpieces
  refine map_injective_on (fun e he e' he' heq => ?_) hpieces
  exact halone e he e' (hes' e' he').1 (.inl ⟨(hes e he).2, (hes' e' he').2⟩) heq

/-- A value has to be told apart from the values of its level only. -/
theorem ReadAlone.of_value {e : Expr} (he : e.Everywhere Fits) (hvalue : 1 ≤ e.level)
    (halone : ∀ e', e'.Everywhere Fits → e'.level = e.level → e.pieces = e'.pieces → e = e') :
    ReadAlone e := by
  intro e' he' hkind h
  have hvalue' : 1 ≤ e'.level := by
    obtain hlevels | hsource | hquery := hkind
    · exact hlevels.2
    · cases e <;> first | exact hsource.1.elim | simp [level] at hvalue
    · cases e <;> first | exact hquery.1.elim | simp [level] at hvalue
  exact halone e' he' (level_eq_of_pieces_eq he he' hvalue hvalue' h).symm h

/-- A chain is read as itself, as its members are cut at its connective. -/
theorem readAlone_chain {op : Connective} {members : List Expr}
    (he : (chain op members).Everywhere Fits) (ih : ∀ c ∈ members, ReadAlone c) :
    ReadAlone (chain op members) := by
  refine .of_value he (by cases op <;> simp [level]) fun e' he' hlevel h => ?_
  obtain ⟨members', rfl⟩ : ∃ members', e' = chain op members' := by
    unfold level at hlevel
    cases op <;> split at hlevel <;> simp_all
  -- the members bind tighter than the connective, so it does not stand in them
  have hlist {ms : List Expr} (hms : (chain op ms).Everywhere Fits) :
      ∀ ps ∈ piecesOf ms, ps ≠ [] ∧ word op.sql ∉ ps := by
    intro ps hps
    rw [piecesOf_eq_map] at hps
    obtain ⟨m, hm, rfl⟩ := List.mem_map.mp hps
    have hbinds := (hms.here.2 m hm).1
    refine ⟨pieces_ne_nil (hms.child hm).here, fun hsep => ?_⟩
    have hrank := level_le_rank (hms.child hm) _ hsep
    rw [rank_connective op ms] at hrank
    cases op <;> simp only [level, memberLevel] at hrank hbinds <;> omega
  have hpieces := intercalate_injective (hlist he) (hlist he') h
  rw [piecesOf_eq_map, piecesOf_eq_map] at hpieces
  rw [map_injective_on (fun m hm m' hm' heq => ?_) hpieces]
  have hpositive {ms : List Expr} (hms : (chain op ms).Everywhere Fits) (m : Expr) (hm : m ∈ ms) :
      1 ≤ m.level := by
    have hbinds := (hms.here.2 m hm).1
    cases op <;> simp only [memberLevel] at hbinds <;> omega
  exact ih m hm m' (he'.child hm') (.inl ⟨hpositive he m hm, hpositive he' m' hm'⟩) heq

/-! ### Operators behind their first operand -/

/-- An expression whose operator stands behind its first operand: that operand, the
    operator, and what follows. -/
def cut : Expr → Option (Expr × Piece × List Piece)
  | .cast e type => some (e, op "::", [word type])
  | contains l r => some (l, op "@>", r.pieces)
  | .matches m l r => some (l, word m.sql, r.pieces)
  | inList l items => some (l, word "IN", [.brackets .round (listed (piecesOf items))])
  | inQuery l query => some (l, word "IN", [.brackets .round query.pieces])
  | .compare c l r => some (l, op c.sql, r.pieces)
  | null test e => some (e, word "IS", ((nullWords test).map word).tail)
  | _ => none

/-- An expression with an operator is written with it behind the left side, which binds tighter. -/
theorem cut_spec {e l : Expr} {x : Piece} {rest : List Piece} (h : cut e = some (l, x, rest)) :
    e.pieces = l.pieces ++ x :: rest ∧ x.rank = e.level ∧ l ∈ e.children ∧
      (e.Fits → l.Binds (e.level + 1)) := by
  obtain ⟨hminus, hcast, hcontains, hin, hmatch, hcompare, -⟩ := rank_operators
  cases e with
  | cast e type => cases h; exact ⟨rfl, hcast, by simp [children], fun hfits => hfits.1⟩
  | contains l r => cases h; exact ⟨rfl, hcontains, by simp [children], fun hfits => hfits.1⟩
  | «matches» m l r => cases h; exact ⟨rfl, hmatch m, by simp [children], fun hfits => hfits.1⟩
  | inList l items => cases h; exact ⟨rfl, hin, by simp [children], fun hfits => hfits.1⟩
  | inQuery l query => cases h; exact ⟨rfl, hin, by simp [children], fun hfits => hfits.1⟩
  | compare c l r => cases h; exact ⟨rfl, hcompare c, by simp [children], fun hfits => hfits.1⟩
  | null test e =>
    cases h
    exact ⟨by cases test <;> rfl, rfl, by simp [children], fun hfits => hfits⟩
  | _ => cases h

/-- Two values of one level are cut at the same place. -/
theorem cut_eq {e e' l l' : Expr} {x x' : Piece} {rest rest' : List Piece}
    (he : e.Everywhere Fits) (he' : e'.Everywhere Fits) (hlevel : e'.level = e.level)
    (hcut : cut e = some (l, x, rest)) (hcut' : cut e' = some (l', x', rest'))
    (ih : ∀ c ∈ e.children, ReadAlone c) (h : e.pieces = e'.pieces) :
    l = l' ∧ x = x' ∧ rest = rest' := by
  obtain ⟨hpieces, hrank, hl, hbinds⟩ := cut_spec hcut
  obtain ⟨hpieces', hrank', hl', hbinds'⟩ := cut_spec hcut'
  rw [hlevel] at hrank' hbinds'
  rw [hpieces, hpieces'] at h
  -- the first operand binds tighter than the operator, so the operator is the first
  -- piece of its rank
  have hfront {y : Expr} (hy : y.Everywhere Fits) (hb : y.Binds (e.level + 1)) :
      ∀ p ∈ y.pieces, ¬ p.rank = e.level := by
    intro p hp heq
    have hle := level_le_rank hy p hp
    have hylevel := hb.1
    omega
  obtain ⟨hpieces, hx, hrest⟩ := split_unique (hfront (he.child hl) (hbinds he.here))
    (hfront (he'.child hl') (hbinds' he'.here)) hrank hrank' h
  have hlevels := (hbinds he.here).1
  have hlevels' := (hbinds' he'.here).1
  exact ⟨ih l hl l' (he'.child hl') (.inl ⟨by omega, by omega⟩) hpieces, hx, hrest⟩

/-- Values in two expressions are the same if they are written alike. -/
theorem operand_eq {e e' r r' : Expr} {n n' : Nat} (he' : e'.Everywhere Fits)
    (ih : ∀ c ∈ e.children, ReadAlone c) (hr : r ∈ e.children) (hr' : r' ∈ e'.children)
    (hbinds : r.Binds (n + 1)) (hbinds' : r'.Binds (n' + 1)) (h : r.pieces = r'.pieces) :
    r = r' := by
  have hlevel := hbinds.1
  have hlevel' := hbinds'.1
  exact ih r hr r' (he'.child hr') (.inl ⟨by omega, by omega⟩) h

/-- A test for null is read as itself. -/
theorem readAlone_null {test : NullTest} {e : Expr} (he : (null test e).Everywhere Fits)
    (ih : ∀ c ∈ (null test e).children, ReadAlone c) : ReadAlone (null test e) := by
  refine .of_value he (by simp [level]) fun e' he' hlevel h => ?_
  obtain ⟨test', x, rfl⟩ : ∃ test' x, e' = null test' x := by
    unfold level at hlevel
    split at hlevel <;> simp_all
  obtain ⟨rfl, -, hrest⟩ := cut_eq he he' hlevel rfl rfl ih h
  cases test <;> cases test' <;> simp_all [nullWords]

/-- A comparison is read as itself. -/
theorem readAlone_compare {op : Comparison} {l r : Expr} (he : (compare op l r).Everywhere Fits)
    (ih : ∀ c ∈ (compare op l r).children, ReadAlone c) : ReadAlone (compare op l r) := by
  refine .of_value he (by simp [level]) fun e' he' hlevel h => ?_
  obtain ⟨op', l', r', rfl⟩ : ∃ op' l' r', e' = compare op' l' r' := by
    unfold level at hlevel
    split at hlevel <;> simp_all
  obtain ⟨rfl, hop, hrest⟩ := cut_eq he he' hlevel rfl rfl ih h
  have hr := operand_eq he' ih (by simp [children]) (by simp [children]) he.here.2 he'.here.2 hrest
  subst hr
  cases op <;> cases op' <;> simp_all [Piece.op, Comparison.sql]

/-- What separates other things does not stand between the items of a list. -/
theorem not_mem_listed {es : List Expr} (hes : ∀ e ∈ es, e.Everywhere Fits ∧ 1 ≤ e.level)
    {p : Piece} (hrank : p.rank = 0) (hp : p ≠ .atom .comma) : p ∉ listed (piecesOf es) := by
  intro hmem
  obtain rfl | ⟨item, hitem, hmem⟩ := mem_intercalate hmem
  · exact hp rfl
  · rw [piecesOf_eq_map] at hitem
    obtain ⟨e, he, rfl⟩ := List.mem_map.mp hitem
    obtain ⟨hfits, hlevel⟩ := hes e he
    have hle := level_le_rank hfits p hmem
    omega

/-- A list of values is no query. -/
theorem listed_ne_query {es : List Expr} {query : Expr}
    (hes : ∀ e ∈ es, e.Everywhere Fits ∧ 1 ≤ e.level) (hquery : query.IsQuery) :
    listed (piecesOf es) ≠ query.pieces := by
  intro h
  -- every query begins with `SELECT`, which separates what is no value
  have hselect : word "SELECT" ∈ query.pieces := by
    cases query <;> first | exact hquery.elim | exact List.mem_cons_self
  exact not_mem_listed hes (by decide) (by simp [Piece.word]) (h ▸ hselect)

/-- The membership tests, grouped by the operator that they are written with. -/
def memberClass : Expr → Nat
  | contains .. => 1
  | .matches .. => 2
  | inList .. | inQuery .. => 3
  | _ => 0

/-- The group of the tests that an operator is for. -/
def operatorClass : Piece → Nat
  | .atom (.op _) => 1
  | .atom (.word s) => if s = "IN" then 3 else 2
  | _ => 0

/-- Every test for membership is cut at an operator of its group. -/
theorem exists_cut {e : Expr} (hlevel : e.level = 5) :
    ∃ l x rest, cut e = some (l, x, rest) ∧ operatorClass x = memberClass e := by
  cases e with
  | contains | inList | inQuery => exact ⟨_, _, _, rfl, rfl⟩
  | «matches» m => exact ⟨_, _, _, rfl, by cases m <;> rfl⟩
  | number negative => cases negative <;> cases hlevel
  | chain op => cases op <;> cases hlevel
  | _ => cases hlevel

/-- A test for membership is read as itself, whatever its operator is. -/
theorem readAlone_membership {e : Expr} (he : e.Everywhere Fits) (hlevel : e.level = 5)
    (ih : ∀ c ∈ e.children, ReadAlone c) : ReadAlone e := by
  refine .of_value he (by omega) fun e' he' hlevel' h => ?_
  have hitems {l : Expr} {items : List Expr} (hin : (inList l items).Everywhere Fits) :
      ∀ x ∈ items, x.Everywhere Fits ∧ 1 ≤ x.level := fun x hx =>
    ⟨hin.child (List.mem_cons_of_mem l hx), (hin.here.2.2 x hx).1⟩
  obtain ⟨l, x, rest, hcut, hx⟩ := exists_cut hlevel
  obtain ⟨l', x', rest', hcut', hx'⟩ := exists_cut (hlevel'.trans hlevel)
  obtain ⟨rfl, rfl, hrest⟩ := cut_eq he he' hlevel' hcut hcut' ih h
  -- both have the same operator, so they are tests of one group
  have hclass : memberClass e' = memberClass e := by rw [← hx, ← hx']
  cases e with
  | contains l r =>
    cases e' with
    | contains l' r' =>
      cases hcut
      cases hcut'
      rw [operand_eq he' ih (by simp [children]) (by simp [children]) he.here.2 he'.here.2 hrest]
    | _ => cases hclass
  | «matches» m l r =>
    cases e' with
    | «matches» m' l' r' =>
      have hm : m = m' := by
        cases hcut
        cases m <;> cases m' <;> simp_all [cut, Piece.word, Matching.sql]
      subst hm
      cases hcut
      cases hcut'
      rw [operand_eq he' ih (by simp [children]) (by simp [children]) he.here.2 he'.here.2 hrest]
    | _ => cases hclass
  | inList l items =>
    cases e' with
    | inList l' items' =>
      cases hcut
      cases hcut'
      have hcontent : listed (piecesOf items) = listed (piecesOf items') := by simpa using hrest
      rw [listed_injective (hitems he) (hitems he')
        (fun x hx => ih x (List.mem_cons_of_mem l hx)) hcontent]
    | inQuery l' query =>
      cases hcut
      cases hcut'
      have hcontent : listed (piecesOf items) = query.pieces := by simpa using hrest
      exact absurd hcontent (listed_ne_query (hitems he) he'.here.2)
    | _ => cases hclass
  | inQuery l query =>
    cases e' with
    | inList l' items =>
      cases hcut
      cases hcut'
      have hcontent : listed (piecesOf items) = query.pieces := by simpa using hrest.symm
      exact absurd hcontent (listed_ne_query (hitems he') he.here.2)
    | inQuery l' query' =>
      cases hcut
      cases hcut'
      have hcontent : query.pieces = query'.pieces := by simpa using hrest
      rw [ih query (by simp [children]) query' (he'.child (by simp [children]))
        (.inr (.inr ⟨he.here.2, he'.here.2⟩)) hcontent]
    | _ => cases hclass
  | number negative => cases negative <;> cases hlevel
  | chain op => cases op <;> cases hlevel
  | _ => cases hlevel

/-- A number holds no type cast. -/
theorem cast_ne_number (x : Expr) (type : String) (negative : Bool) (whole : String)
    (fraction : Option String) :
    (Expr.cast x type).pieces ≠ (number negative whole fraction).pieces := by
  intro h
  have hsign : op "::" ∈ (number negative whole fraction).pieces :=
    h ▸ List.mem_append_right x.pieces List.mem_cons_self
  cases negative <;> simp [pieces, Piece.op, Piece.word] at hsign

/-- A cast is read as itself, as its type stands behind the last operator. -/
theorem readAlone_cast {x : Expr} {type : String} (he : (Expr.cast x type).Everywhere Fits)
    (ih : ∀ c ∈ (Expr.cast x type).children, ReadAlone c) : ReadAlone (Expr.cast x type) := by
  refine .of_value he (by simp [level]) fun e' he' hlevel h => ?_
  cases e' with
  | cast x' type' =>
    obtain ⟨rfl, -, hrest⟩ := cut_eq he he' hlevel rfl rfl ih h
    have htype : type = type' := by simpa [Piece.word] using hrest
    rw [htype]
  | number negative whole fraction => exact absurd h (cast_ne_number _ _ _ _ _)
  | chain op => cases op <;> cases hlevel
  | _ => cases hlevel

/-- A number can be told from its digits, if the sign is known. -/
theorem number_injective {negative : Bool} {whole whole' : String}
    {fraction fraction' : Option String}
    (h : (number negative whole fraction).pieces = (number negative whole' fraction').pieces) :
    number negative whole fraction = number negative whole' fraction' := by
  cases negative <;> cases fraction <;> cases fraction' <;> simp_all [pieces, Piece.word]

/-- A negative number is read as itself. -/
theorem readAlone_negative {whole : String} {fraction : Option String}
    (he : (number true whole fraction).Everywhere Fits) :
    ReadAlone (number true whole fraction) := by
  refine .of_value he (by simp [level]) fun e' he' hlevel h => ?_
  cases e' with
  | cast x type => exact absurd h.symm (cast_ne_number _ _ _ _ _)
  | number negative whole' fraction' =>
    cases negative with
    | true => exact number_injective h
    | false => cases hlevel
  | chain op => cases op <;> cases hlevel
  | _ => cases hlevel

end RowPolicy.Sql
