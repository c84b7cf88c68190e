import RowPolicy.Proofs.Predicate.Sound
import RowPolicy.Proofs.Predicate.Tokens

namespace RowPolicy

open Sql

/-!
# How predicates are read

The text of a predicate is meant to be read as the predicate's own expression.  Two things
can stand in the way: a name that SQL does not accept where it stands, and a predicate
that is compared with and binds no tighter than the comparison.  Nothing else can.

* `Predicate.usable` — the expressions of predicates are sound everywhere;
* `Predicate.reads_iff` — a predicate is read as itself, and as nothing else, exactly under
  the two conditions;
* `Predicate.null_takes_comparison`, `Predicate.comparison_chain_unread` — what is read
  where the second one fails.
-/

open Sql.Expr (Binds Everywhere Fits IsDigits IsQuery IsSource Named Sound Tight all children
  constants level memberLevel)

/-! ### Predicates, operands and subqueries -/

mutual

/-- The expression of an operand is usable. -/
theorem Operand.usable : (v : Operand) → Usable v.expr
  | .null => usable_constant (by decide)
  | .bool b => usable_constant (by cases b <;> decide)
  | .int _ => usable_number (isDigits_toDigits _) (by simp)
  | .float x => usable_float x
  | .text s => usable_text s
  | .instant t => usable_cast (usable_text t.text) (by simp [Binds, level]) (by decide)
  | .array items => usable_array (Operand.usables items)
  | .raw _ => usable_call _ (by simp)
  | .predicate p => p.usable

theorem Operand.usables : (vs : List Operand) → ∀ e ∈ Operand.exprs vs, Usable e
  | [] => by simp [Operand.exprs]
  | v :: vs => by
    rw [Operand.exprs, List.forall_mem_cons]
    exact ⟨v.usable, Operand.usables vs⟩

theorem Operand.usable_params :
    (ps : List (String × Operand)) → ∀ e ∈ Operand.paramExprs ps, Usable e
  | [] => by simp [Operand.paramExprs]
  | p :: ps => by
    rw [Operand.paramExprs, List.forall_mem_cons]
    exact ⟨Operand.usable_param p, Operand.usable_params ps⟩

theorem Operand.usable_param : (p : String × Operand) → Usable (Operand.paramExpr p)
  | (_, v) => v.usable

/-- The expression of a membership is usable. -/
theorem Source.usable (column : String) (op : Membership) :
    (source : Source) → Usable (Source.expr column op source)
  | .values items => usable_list column op (Operand.usables items)
  | .subquery q => usable_query column op q.sound.1 q.sound.2

/-- The expression of an argument is sound throughout, and may stand between commas. -/
theorem Argument.sound : (a : Argument) → a.expr.Everywhere Sound ∧ 1 ≤ a.expr.level
  | .column _ => ⟨sound_columnExpr _, by simp [Argument.expr, level_columnExpr]⟩
  | .predicate p => ⟨p.usable.1, (p.usable.binds (by decide)).1⟩

theorem Argument.sounds :
    (as : List Argument) → ∀ e ∈ Argument.exprs as, e.Everywhere Sound ∧ 1 ≤ e.level
  | [] => by simp [Argument.exprs]
  | a :: as => by
    rw [Argument.exprs, List.forall_mem_cons]
    exact ⟨a.sound, Argument.sounds as⟩

/-- The expression of a predicate is sound everywhere, and may be a member of any
    group. -/
theorem Predicate.usable : (p : Predicate) → Usable p.expr
  | .compare _ op operand => usable_compare op _ operand.usable
  | .pattern _ op pattern => usable_matches op _ pattern
  | .member column op source => Source.usable column op source
  | .null _ test => usable_null test _
  | .group op members => usable_group op (Predicate.usables members)
  | .helper name params => usable_helper name params (Operand.usable_params params)
  | .call _ args => usable_call _ (Argument.sounds args)
  | .context c => usable_context c

theorem Predicate.usables : (ps : List Predicate) → ∀ e ∈ Predicate.exprs ps, Usable e
  | [] => by simp [Predicate.exprs]
  | p :: ps => by
    rw [Predicate.exprs, List.forall_mem_cons]
    exact ⟨p.usable, Predicate.usables ps⟩

/-- The source of a query is sound, with a join or without. -/
theorem Join.sound_source (table : String) (aliasName : Option String) :
    (join : Option Join) → (Join.source (tableExpr table aliasName) join).Everywhere Sound ∧
      (Join.source (tableExpr table aliasName) join).IsSource
  | none => ⟨sound_table table aliasName, trivial⟩
  | some j => j.sound table aliasName

/-- A join is sound, as its condition is a value of any kind. -/
theorem Join.sound (table : String) (aliasName : Option String) :
    (j : Join) → (Join.expr (tableExpr table aliasName) j).Everywhere Sound ∧
      (Join.expr (tableExpr table aliasName) j).IsSource
  | ⟨_, _, _, on⟩ => by
    have hon := on.usable
    refine ⟨.intro ?_ ?_, trivial⟩
    · simp [Join.expr, Sound, Fits, Named, Tight, hon.binds]
    · simpa [Join.expr, children] using hon.1

/-- The filter of a query is sound, and so is a missing one. -/
theorem Predicate.sound_filter :
    (filter : Option Predicate) → ∀ e ∈ Predicate.filterExpr filter,
      e.Everywhere Sound ∧ e.Binds 1
  | none => by simp [Predicate.filterExpr]
  | some p => by
    rintro e ⟨⟩
    exact ⟨p.usable.1, p.usable.binds (by decide)⟩

/-- The expression of a subquery is a sound query. -/
theorem Subquery.sound : (q : Subquery) → q.expr.Everywhere Sound ∧ q.expr.IsQuery
  | ⟨table, aliasName, columns, join, filter⟩ => by
    have hcolumns := sound_columns columns
    exact ⟨sound_query hcolumns.1 hcolumns.2 (Join.sound_source table aliasName join)
      (Predicate.sound_filter filter), trivial⟩

end

/-! ### What is read -/

namespace Predicate

/-- **Exactly two conditions.** The text of a predicate is read as the expression of the
    predicate, and as no other, just if its names are accepted and nothing in it compares
    with what binds no tighter than a comparison. -/
theorem reads_iff (p : Predicate) (h : ∀ s ∈ p.raws, s = rawNow) :
    (∀ e, Reads p.sql e ↔ e = p.expr) ↔
      p.expr.Everywhere Named ∧ p.expr.Everywhere Tight := by
  rw [← Expr.everywhere_fits_iff p.usable.1]
  constructor
  · intro hreads
    obtain ⟨-, -, hfits⟩ := (hreads p.expr).mpr rfl
    exact hfits
  · intro hfits e
    -- under the two conditions the predicate is one reading, so it is the only one
    have hself : Reads p.sql p.expr :=
      ⟨(p.spells_sql h).tokens?, p.usable.binds (by decide), hfits⟩
    constructor
    · exact fun he => he.unique hself
    · rintro rfl
      exact hself

/-- A comparison with a group is read as such: the group stands in parentheses. -/
theorem reads_iff_group :
    let p : Predicate := .compare "a" .eq (.predicate (.group .and [.null "b" .isNull]))
    p.sql = "\"a\" = (\"b\" IS NULL)" ∧ ∀ e, Reads p.sql e ↔ e = p.expr := by
  intro p
  -- both references name columns, so no name is in the way
  have ha : IsColumn (quotedPath "a") := isColumn_quoted (by decide) (by decide)
  have hb : IsColumn (quotedPath "b") := isColumn_quoted (by decide) (by decide)
  have hexpr : p.expr =
      .compare .eq (.column (quotedPath "a"))
        (.paren (.null .isNull (.column (quotedPath "b")))) := by
    simp [p, expr, Operand.expr, exprs, Connective.groupExpr, columnExpr_of_isColumn, ha, hb]
  refine ⟨by decide +kernel, (reads_iff p (by decide)).mpr ?_⟩
  rw [← Expr.everywhere_and, hexpr]
  refine .intro (by simp [Named, Tight, level]) ?_
  rw [children, List.forall_mem_cons, List.forall_mem_singleton]
  -- what is left are the columns and the test in parentheses, which binds tight
  refine ⟨.intro ⟨ha, trivial⟩ (by simp [children]), .intro ⟨trivial, trivial⟩ ?_⟩
  rw [children, List.forall_mem_singleton]
  refine .intro (by simp [Named, Tight]) ?_
  rw [children, List.forall_mem_singleton]
  exact .intro ⟨hb, trivial⟩ (by simp [children])

/-- **A null test takes the comparison.** Where a comparison with a null test is written,
    the null test of the comparison is read. -/
theorem null_takes_comparison {left right : String} (op : Comparison) (test : NullTest)
    (hleft : IsColumn (quotedPath left)) (hright : IsColumn (quotedPath right)) :
    Reads (compare left op (.predicate (.null right test))).sql
      (.null test (.compare op (.column (quotedPath left)) (.column (quotedPath right)))) := by
  have hcolumn {path : List Name} (h : IsColumn path) :
      (Expr.column path).Everywhere Fits ∧ (Expr.column path).Binds 5 :=
    ⟨.intro h (by simp [children]), by simp [Binds, level]⟩
  -- both expressions are written alike, and only the null test of a comparison fits
  refine ⟨?_, by simp [Binds, level], .intro (by simp [Fits, Binds, level]) ?_⟩
  · rw [(spells_sql _ (by simp [raws, Operand.raws])).tokens?]
    simp [expr, Operand.expr, Expr.pieces, columnExpr_of_isColumn hleft,
      columnExpr_of_isColumn hright]
  · rw [children, List.forall_mem_singleton]
    refine .intro ⟨(hcolumn hleft).2, (hcolumn hright).2⟩ ?_
    simp [children, (hcolumn hleft).1, (hcolumn hright).1]

/-- **Comparisons do not chain.** Where a comparison with a comparison is written, nothing
    is read. -/
theorem comparison_chain_unread {left right : String} (op op' : Comparison) {v : Operand}
    (hraws : ∀ s ∈ v.raws, s = rawNow) (hleft : IsColumn (quotedPath left))
    (hright : IsColumn (quotedPath right)) (hv : v.expr.Everywhere Fits) (hlevel : 5 ≤ v.expr.level)
    (e : Expr) : ¬ Reads (compare left op (.predicate (.compare right op' v))).sql e := by
  rintro ⟨htokens, hbinds, hfits⟩
  rw [(spells_sql _ (by simpa [raws, Operand.raws] using hraws)).tokens?] at htokens
  have hpieces : pathPieces false (quotedPath left) ++ Piece.op op.sql ::
      (pathPieces false (quotedPath right) ++ Piece.op op'.sql :: v.expr.pieces) = e.pieces := by
    have h := tokensOf_injective (Option.some.inj htokens)
    rwa [expr, Operand.expr, expr, columnExpr_of_isColumn hleft, columnExpr_of_isColumn hright] at h
  have hop (c : Comparison) : (Piece.op c.sql).rank = 4 := by cases c <;> rfl
  have hmem : Piece.op op.sql ∈ e.pieces := hpieces ▸ List.mem_append_right _ List.mem_cons_self
  -- nothing is looser than the comparisons, so that is what can be read
  have hlow : ∀ p ∈ e.pieces, 4 ≤ p.rank := by
    rw [← hpieces]
    simp only [List.forall_mem_append, List.forall_mem_cons, hop, Nat.le_refl, true_and]
    exact ⟨fun p hp => by simp [rank_of_isColumn hleft p hp],
      fun p hp => by simp [rank_of_isColumn hright p hp],
      fun p hp => Nat.le_trans (by omega) (level_le_rank hv p hp)⟩
  have hlevel4 : e.level = 4 := by
    refine Nat.le_antisymm (hop op ▸ level_le_rank hfits _ hmem) ?_
    by_contra hlt
    obtain ⟨p, hp, hrank⟩ := exists_rank_eq hfits.here hbinds.1 (by omega)
    have hp4 := hlow p hp
    omega
  cases e with
  | compare c l r =>
    obtain ⟨hl, hr⟩ := hfits.here
    have htight {x : Expr} (hx : x ∈ [l, r]) (hxbinds : x.Binds 5) :
        ∀ p ∈ x.pieces, ¬ p.rank = 4 := fun p hp hrank => by
      have hle := Nat.le_trans hxbinds.1 (level_le_rank (hfits.child hx) p hp)
      omega
    -- the first of the two is read, and the second one stands in its operand
    obtain ⟨-, -, hrest⟩ := split_unique (P := fun p => p.rank = 4)
      (fun p hp => by simp [rank_of_isColumn hleft p hp]) (htight (by simp) hl) (hop op) (hop c)
      hpieces
    exact htight (by simp) hr (.op op'.sql)
      (hrest ▸ List.mem_append_right _ List.mem_cons_self) (hop op')
  | chain connective => cases connective <;> simp [level] at hlevel4
  | number negative => cases negative <;> simp [level] at hlevel4
  | _ => simp [level] at hlevel4

/-- The comparison is lost where its operand is a null test. -/
theorem not_reads_null :
    let p : Predicate := .compare "a" .eq (.predicate (.null "b" .isNull))
    p.sql = "\"a\" = \"b\" IS NULL" ∧
      Reads p.sql (.null .isNull (.compare .eq (.column [.quoted "a"]) (.column [.quoted "b"]))) ∧
      ¬ Reads p.sql p.expr := by
  intro p
  have ha : IsColumn (quotedPath "a") := isColumn_quoted (by decide) (by decide)
  have hb : IsColumn (quotedPath "b") := isColumn_quoted (by decide) (by decide)
  have hread := null_takes_comparison .eq .isNull ha hb
  refine ⟨by decide +kernel, hread, fun hself => ?_⟩
  -- one text cannot be read in both ways
  have heq := hread.unique hself
  simp [p, expr] at heq

end Predicate

end RowPolicy
