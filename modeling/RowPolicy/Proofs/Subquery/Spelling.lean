import RowPolicy.Proofs.Reference.Segments
import RowPolicy.Proofs.Subquery.Resolve

namespace RowPolicy

/-!
# Tables that are spelled in two ways

A table may be given by its name or by the name in quotes.  The qualifiers of references are
compared as names, the tables in scope as they are spelled.  So a table that is spelled in
quotes is not found by its name, and two runs over one table may decide differently:

* `Reference.qualifier_quoteIdentifier` — a reference that is qualified by a given name;
* `Subquery.trace`, `Subquery.decisions` — the steps of a run with the subqueries they come to,
  and what is decided about them;
* `Subquery.Step.Respelled`, `Subquery.ScopesAgree` — steps on one table in two spellings, and
  scopes that agree on what a step refers to;
* `Subquery.spelling_decides` — when two runs decide alike;
* `Subquery.quoted_table_refuses_own_name` — a table in quotes and a filter on its column.
-/

/-! ### Qualified references -/

namespace Reference

/-- A quoted name in front of a dot is the qualifier. -/
theorem qualifier_quoteIdentifier {name : String} (h : name ≠ "") (reference : String) :
    qualifier? (quoteIdentifier name ++ "." ++ reference) = some name := by
  rw [qualifier?, segments_cons (closed_quoteIdentifier name)]
  obtain ⟨first, rest, hsegments⟩ := List.exists_cons_of_ne_nil (segments_ne_nil reference)
  simp only [hsegments, nameOf_quoteIdentifier, if_neg h]

/-- A segment that is not in quotes is its own name, and no other one is. -/
theorem nameOf_eq_self {segment : String} :
    nameOf segment = segment ↔ quotedName? segment = none := by
  rw [nameOf]
  cases h : quotedName? segment with
  | none => simp
  | some name =>
    have hlength := Sql.length_lt_of_quotedName h
    refine iff_of_false (fun hsame => ?_) (by simp)
    rw [Option.getD_some] at hsame
    rw [hsame] at hlength
    exact Nat.lt_irrefl _ hlength

end Reference

namespace Subquery

/-! ### Decisions along a run -/

/-- The steps of a run, each with the subquery that it comes to. -/
def trace (q : Subquery) : List Step → List (Subquery × Step)
  | [] => []
  | s :: steps => (q, s) :: (q.advance s).trace steps

/-- Whether a subquery accepts a step. -/
def accepts (q : Subquery) (s : Step) : Bool := (q.apply s).isOk

/-- What a run decides about its steps, in order. -/
def decisions (q : Subquery) (steps : List Step) : List Bool :=
  (q.trace steps).map fun p => p.1.accepts p.2

/-- A step is accepted unless it is a second join or refers to a table that it may not. -/
theorem accepts_eq_true_iff {q : Subquery} {s : Step} :
    q.accepts s = true ↔
      ¬ q.IsSecondJoin s ∧ ∀ table ∈ qualifiers s.references, table ∈ s.allowed q := by
  rw [accepts, ← Step.outside_eq_nil]
  cases happly : q.apply s with
  | ok next =>
    obtain ⟨hfirst, hinside, -⟩ := apply_eq_ok.mp happly
    exact iff_of_true rfl ⟨hfirst, hinside⟩
  | error f =>
    refine iff_of_false (by simp [Except.isOk, Except.toBool]) fun ⟨hfirst, hinside⟩ => ?_
    rw [apply_eq_ok.mpr ⟨hfirst, hinside, rfl⟩] at happly
    cases happly

/-- An accepted step has its effect. -/
theorem advance_of_accepts {q : Subquery} {s : Step} (h : q.accepts s = true) :
    ¬ q.IsSecondJoin s ∧ q.advance s = q.effect s := by
  have hfirst := (accepts_eq_true_iff.mp h).1
  rw [accepts] at h
  rw [advance]
  cases happly : q.apply s with
  | ok next => exact ⟨hfirst, (apply_eq_ok.mp happly).2.2⟩
  | error f => simp [happly, Except.isOk, Except.toBool] at h

/-- A refused step has none. -/
theorem advance_of_not_accepts {q : Subquery} {s : Step} (h : q.accepts s = false) :
    q.advance s = q := by
  rw [accepts] at h
  rw [advance]
  cases happly : q.apply s with
  | ok next => simp [happly, Except.isOk, Except.toBool] at h
  | error f => rfl

/-! ### Two spellings -/

/-- Steps that are the same but for the spelling of a table that is joined without an
    alias. -/
inductive Step.Respelled : Step → Step → Prop where
  | same (s : Step) : Respelled s s
  | joined (kind : JoinKind) {table other : String} (on : Predicate)
      (h : Reference.nameOf table = Reference.nameOf other) :
      Respelled (.attach ⟨kind, table, none, on⟩) (.attach ⟨kind, other, none, on⟩)

namespace Step.Respelled

variable {s t : Step}

/-- Steps that are spelled differently refer to the same. -/
theorem references (h : Respelled s t) : t.references = s.references := by
  cases h <;> rfl

/-- Both of them are joins, or neither is. -/
theorem isSome_join (h : Respelled s t) : t.join?.isSome = s.join?.isSome := by
  cases h <;> rfl

end Step.Respelled

/-- If one of two runs accepts the step that it comes to, then each table that the step refers
    to is in both of the scopes or in none of them. -/
def ScopesAgree (a b : Subquery × Step) : Prop :=
  a.1.accepts a.2 ∨ b.1.accepts b.2 →
    ∀ table ∈ qualifiers a.2.references, table ∈ a.2.allowed a.1 ↔ table ∈ b.2.allowed b.1

section

variable {q r : Subquery} (hjoin : q.join.isSome = r.join.isSome)

include hjoin

/-- The steps are decided alike exactly if the scopes agree on them. -/
theorem accepts_eq_iff {s t : Step} (h : s.Respelled t) :
    q.accepts s = r.accepts t ↔ ScopesAgree (q, s) (r, t) := by
  have hsecond : r.IsSecondJoin t ↔ q.IsSecondJoin s := by
    rw [IsSecondJoin, IsSecondJoin, h.isSome_join, hjoin]
  have hr : r.accepts t = true ↔
      ¬ q.IsSecondJoin s ∧ ∀ table ∈ qualifiers s.references, table ∈ t.allowed r := by
    rw [accepts_eq_true_iff, hsecond, h.references]
  rw [ScopesAgree, Bool.eq_iff_iff]
  constructor
  · intro hsame hone table htable
    -- both accept, so both scopes hold what the step refers to
    have hboth : q.accepts s = true ∧ r.accepts t = true := by
      rcases hone with hq | ht
      · exact ⟨hq, hsame.mp hq⟩
      · exact ⟨hsame.mpr ht, ht⟩
    have hinside := (accepts_eq_true_iff.mp hboth.1).2 table htable
    exact iff_of_true hinside ((hr.mp hboth.2).2 table htable)
  · intro hagree
    constructor
    · intro hq
      obtain ⟨hfirst, hinside⟩ := accepts_eq_true_iff.mp hq
      exact hr.mpr ⟨hfirst, fun table htable =>
        (hagree (.inl hq) table htable).mp (hinside table htable)⟩
    · intro ht
      obtain ⟨hfirst, hinside⟩ := hr.mp ht
      exact accepts_eq_true_iff.mpr ⟨hfirst, fun table htable =>
        (hagree (.inr ht) table htable).mpr (hinside table htable)⟩

/-- Steps that are decided alike bring a join into both subqueries, or into none. -/
theorem isSome_join_advance {s t : Step} (h : s.Respelled t)
    (hsame : q.accepts s = r.accepts t) :
    (q.advance s).join.isSome = (r.advance t).join.isSome := by
  -- there is a join behind the step if there was one or the step is one
  have hisSome (o : Option Join) : o.isSome = true ↔ o.toList ≠ [] := by cases o <;> simp
  have heffect {q : Subquery} {s : Step} (hq : q.accepts s = true) :
      (q.advance s).join.isSome = (q.join.isSome || s.join?.isSome) := by
    obtain ⟨hfirst, hadvance⟩ := advance_of_accepts hq
    rw [hadvance, Bool.eq_iff_iff, Bool.or_eq_true, hisSome, hisSome, hisSome,
      join_effect hfirst, ne_eq, List.append_eq_nil_iff, not_and_or]
  cases hq : q.accepts s with
  | true =>
    rw [heffect hq, heffect (hsame ▸ hq), hjoin, h.isSome_join]
  | false =>
    rw [advance_of_not_accepts hq, advance_of_not_accepts (hsame ▸ hq), hjoin]

/-- Two runs decide alike if and only if their scopes agree at each step. -/
theorem decisions_eq_iff {steps others : List Step} (h : List.Forall₂ Step.Respelled steps others) :
    q.decisions steps = r.decisions others ↔
      List.Forall₂ ScopesAgree (q.trace steps) (r.trace others) := by
  induction h generalizing q r with
  | nil => exact iff_of_true rfl .nil
  | @cons s t steps others hst _ ih =>
    rw [decisions, decisions, trace, trace, List.map_cons, List.map_cons, List.cons.injEq,
      List.forall₂_cons, ← accepts_eq_iff hjoin hst]
    exact and_congr_right fun hsame => ih (isSome_join_advance hjoin hst hsame)

end

/-! ### Runs over one table -/

/-- A step that may be taken and refers to one table only is accepted if that table is in
    scope. -/
theorem accepts_iff_mem {q : Subquery} {s : Step} (hfirst : ¬ q.IsSecondJoin s) {table : String}
    (hne : qualifiers s.references ≠ [])
    (honly : ∀ name ∈ qualifiers s.references, name = table) :
    q.accepts s = true ↔ table ∈ s.allowed q := by
  obtain ⟨first, hmem⟩ := List.exists_mem_of_ne_nil _ hne
  rw [accepts_eq_true_iff, and_iff_right hfirst]
  constructor
  · intro h
    rw [← honly first hmem]
    exact h first hmem
  · intro h name hname
    rw [honly name hname]
    exact h

/-- A filter that refers to one table only is accepted if the table of the subquery is spelled
    as that reference reads. -/
theorem accepts_restrict_ofTable {table name : String} {p : Predicate}
    (hne : qualifiers p.references ≠ []) (honly : ∀ n ∈ qualifiers p.references, n = name) :
    (ofTable table none).accepts (.restrict p) = true ↔ name = table := by
  have haccepts : (ofTable table none).accepts (.restrict p) = true ↔
      name ∈ (ofTable table none).available :=
    accepts_iff_mem (s := .restrict p) (not_isSecondJoin rfl) hne honly
  rw [haccepts]
  exact List.mem_singleton

/-- A text that is not empty is the qualifier of some filter, which no other table accepts. -/
theorem exists_accepts_iff {table : String} (h : table ≠ "") :
    ∃ p, ∀ other, (ofTable other none).accepts (.restrict p) = true ↔ table = other := by
  let p : Predicate := .null (quoteIdentifier table ++ "." ++ "id") .isNull
  have hp : qualifiers p.references = [table] := by
    simp [p, qualifiers, Predicate.references, Reference.qualifier_quoteIdentifier h]
  exact ⟨p, fun other => accepts_restrict_ofTable (by simp [hp]) (by simp [hp])⟩

/-- **Spelling decides.** Two runs over a table that is given in two spellings of its name, with
    joined tables spelled in two ways as well, decide alike if and only if at each step that
    one of them accepts the scopes agree on the tables that the step refers to.  Two different
    spellings never agree on all filters: a filter that refers to the table by its name, and
    to no other, is accepted for the spelling without quotes and refused for the one with
    them. -/
theorem spelling_decides {table other : String}
    (hname : Reference.nameOf table = Reference.nameOf other) :
    let a := ofTable table none
    let b := ofTable other none
    (∀ steps others, List.Forall₂ Step.Respelled steps others →
      (a.decisions steps = b.decisions others ↔
        List.Forall₂ ScopesAgree (a.trace steps) (b.trace others))) ∧
    ((∀ p, a.accepts (.restrict p) = b.accepts (.restrict p)) ↔ table = other) ∧
    ∀ p, qualifiers p.references ≠ [] →
      (∀ name ∈ qualifiers p.references, name = Reference.nameOf table) →
      (a.accepts (.restrict p) = true ↔ Reference.quotedName? table = none) ∧
      (b.accepts (.restrict p) = true ↔ Reference.quotedName? other = none) := by
  intro a b
  have hjoin : a.join.isSome = b.join.isSome := rfl
  refine ⟨fun steps others h => decisions_eq_iff hjoin h, ?_, ?_⟩
  · constructor
    · intro hsame
      -- one of two different spellings is not empty, and some filter is for it alone
      by_contra hne
      by_cases hempty : table = ""
      · have hother : other ≠ "" := hempty ▸ Ne.symm hne
        obtain ⟨p, hp⟩ := exists_accepts_iff hother
        exact hne ((hp table).mp ((hsame p).trans ((hp other).mpr rfl))).symm
      · obtain ⟨p, hp⟩ := exists_accepts_iff hempty
        exact hne ((hp other).mp ((hsame p).symm.trans ((hp table).mpr rfl)))
    · rintro rfl p
      rfl
  · intro p hne honly
    rw [accepts_restrict_ofTable hne honly, Reference.nameOf_eq_self]
    rw [hname] at honly
    rw [accepts_restrict_ofTable hne honly, Reference.nameOf_eq_self]
    exact ⟨Iff.rfl, Iff.rfl⟩

/-- A table and its joined table, both spelled in two ways: filters on neither of them, and
    filters on a column of each. -/
theorem spelling_decides_mixed :
    let steps (joined : String) : List Step :=
      [.restrict (.null "id" .isNull), .attach ⟨.left, joined, none, .null "team_id" .isNull⟩,
        .restrict (.null "other.id" .isNull)]
    let filter : Predicate := .null "\"My Teams\".id" .isNull
    let a := ofTable "My Teams" none
    let b := ofTable "\"My Teams\"" none
    (a.decisions (steps "m") = [true, true, false] ∧
      List.Forall₂ ScopesAgree (a.trace (steps "m")) (b.trace (steps "\"m\""))) ∧
      a.accepts (.restrict filter) = true ∧ ¬ b.accepts (.restrict filter) = true := by
  intro steps filter a b
  -- the steps differ only in how the joined table is spelled
  have hrespelled : List.Forall₂ Step.Respelled (steps "m") (steps "\"m\"") :=
    .cons (.same _) (.cons (.joined _ _ (by decide +kernel)) (.cons (.same _) .nil))
  obtain ⟨hruns, -, hown⟩ := spelling_decides
    (show Reference.nameOf "My Teams" = Reference.nameOf "\"My Teams\"" by decide +kernel)
  obtain ⟨hplain, hquoted⟩ := hown filter (by decide +kernel) (by decide +kernel)
  -- decision by decision, the scopes agree on what the steps refer to
  refine ⟨⟨by decide +kernel, (hruns _ _ hrespelled).mp (by decide +kernel)⟩, ?_, ?_⟩
  · exact hplain.mpr (by decide +kernel)
  · rw [hquoted]
    decide +kernel

/-- A table that is given in quotes does not accept a filter on its own column; the same table
    without quotes does. -/
theorem quoted_table_refuses_own_name :
    let filter : Predicate := .compare "\"My Table\".id" .eq (.int 1)
    Reference.nameOf "\"My Table\"" = Reference.nameOf "My Table" ∧
      Reference.segments "\"My Table\"" = ["\"My Table\""] ∧
      Reference.segments "My Table" = ["My Table"] ∧
      (ofTable "My Table" none).decisions [.restrict filter] = [true] ∧
      (ofTable "\"My Table\"" none).decisions [.restrict filter] = [false] := by
  decide +kernel

end Subquery

end RowPolicy
