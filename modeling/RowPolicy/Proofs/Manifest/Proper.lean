import RowPolicy.Proofs.Manifest.Realize
import RowPolicy.Proofs.Predicate.Proper

namespace RowPolicy

/-!
# Realized drafts keep the rules

A manifest can describe groups with one member, groups within groups of the same kind, and
subqueries on any tables.  What is realized of them obeys the rules of predicates that are
built by hand, however deep it stands:

* `OperandDraft.leaves_realize` — operands of drafts hold context values at most;
* `PredicateDraft.proper_realize` — predicates and subqueries, by recursion on all sorts of
  drafts at once;
* `PredicateDraft.realize_keeps_rules` — the two rules for every part of a predicate.
-/

open Predicate (Everywhere Proper)

/-! ### Operands -/

namespace OperandDraft

mutual

/-- The predicates in the operand of a draft are context values. -/
theorem leaves_realize :
    (d : OperandDraft) → ∀ {v : Operand}, d.realize = .ok v →
      ∀ p ∈ v.children, ∃ c, p = .context c
  | .null, _, h | .bool _, _, h | .float _, _, h | .text _, _, h | .instant _, _, h
  | .raw _, _, h => by
    -- no such operand has parts
    cases h
    simp [Operand.children]
  | .integer n, v, h => by
    rw [realize, realizeInteger] at h
    split at h
    · cases h
      simp [Operand.children]
    · cases h
  | .context c, _, h => by
    cases h
    simp [Operand.children]
  | .array items, v, h => by
    rw [realize, bind_eq_ok] at h
    obtain ⟨vs, hvs, h⟩ := h
    cases h
    exact leaves_realizes items hvs

theorem leaves_realizes :
    (ds : List OperandDraft) → ∀ {vs : List Operand}, realizes ds = .ok vs →
      ∀ p ∈ Operand.childrenOf vs, ∃ c, p = .context c
  | [], _, h => by
    cases h
    simp [Operand.childrenOf]
  | d :: ds, vs, h => by
    obtain ⟨v, hv, rest, hrest, rfl⟩ := realizes_cons_eq_ok.mp h
    rw [Operand.childrenOf, List.forall_mem_append]
    exact ⟨leaves_realize d hv, leaves_realizes ds hrest⟩

end

end OperandDraft

/-- A predicate that keeps the rules keeps them throughout if its parts are context values. -/
theorem proper_of_leaves {p : Predicate} (h : p.Proper)
    (hleaves : ∀ c ∈ p.children, ∃ k, c = .context k) :
    p.Everywhere Proper := by
  refine .intro h fun c hc => ?_
  obtain ⟨k, rfl⟩ := hleaves c hc
  exact Predicate.everywhere_of_leaf rfl trivial

/-! ### Ready-made predicates and subqueries -/

/-- The test of an owner keeps the rules. -/
theorem proper_isOwner (column : String) : (Predicate.isOwner column).Everywhere Proper :=
  proper_of_leaves trivial fun _ hc => ⟨.authUid, List.mem_singleton.mp hc⟩

/-- The test of a tenant keeps the rules. -/
theorem proper_belongsToTenant (column setting : String) :
    (Predicate.belongsToTenant column setting).Everywhere Proper :=
  proper_of_leaves trivial fun _ hc => ⟨.setting setting .integer, List.mem_singleton.mp hc⟩

/-- The subquery of a membership in another table needs no check, as the column of its
    filter has no qualifier. -/
theorem proper_userBelongsTo (column table select : String) :
    (Predicate.userBelongsTo column table select).Everywhere Proper := by
  have hinside : (Predicate.isOwner Helper.userColumn).tables = [] := by decide +kernel
  refine Subquery.proper_member ⟨⟨?_, by simp⟩, ?_⟩ column .inside
  · rintro p ⟨⟩
    rw [hinside]
    exact List.nil_subset _
  · simpa [Subquery.conditions] using proper_isOwner Helper.userColumn

/-- A subquery that only selects keeps the rules, as it has no clauses. -/
theorem proper_selecting (table : String) (aliasName : Option String) (columns : List String) :
    (Subquery.selecting table aliasName columns).Proper := by
  have hstart := Subquery.proper_ofTable table aliasName
  unfold Subquery.selecting
  by_cases hall : columns.isEmpty = true
  · rwa [if_pos hall]
  · rw [if_neg hall]
    exact hstart.select columns

/-! ### Predicates and subqueries of drafts -/

/-- A group of members that keep the rules keeps them, flattened as it is. -/
theorem Connective.proper_realizeGroup {op : Connective} {members : List Predicate} {p : Predicate}
    (hmembers : ∀ m ∈ members, m.Everywhere Proper) (h : op.realizeGroup members = .ok p) :
    p.Everywhere Proper := by
  unfold realizeGroup at h
  split at h
  · rename_i q hq
    cases h
    exact Predicate.everywhere_fold Predicate.isGroupRule_proper hmembers hq
  · cases h

mutual

/-- A predicate that is realized keeps the rules throughout. -/
theorem PredicateDraft.proper_realize :
    (d : PredicateDraft) → ∀ {p : Predicate}, d.realize = .ok p → p.Everywhere Proper
  | .compare column op operand, p, h => by
    rw [PredicateDraft.realize, bind_eq_ok] at h
    obtain ⟨v, hv, h⟩ := h
    cases h
    exact proper_of_leaves trivial (operand.leaves_realize hv)
  | .pattern column op pattern, p, h | .null column test, p, h | .isPublic column, p, h
  | .isMemberOf table foreignKey localKey, p, h | .hasRole role table, p, h | .alwaysTrue, p, h => by
    cases h
    exact Predicate.everywhere_of_leaf rfl trivial
  | .isOwner column, p, h => by
    cases h
    exact proper_isOwner column
  | .belongsToTenant column setting, p, h => by
    cases h
    exact proper_belongsToTenant column setting
  | .userBelongsTo column table select, p, h => by
    cases h
    exact proper_userBelongsTo column table (select.getD column)
  | .releasedBefore column date, p, h => by
    cases h
    cases date <;> exact Predicate.everywhere_of_leaf rfl trivial
  | .member column op (some values) none, p, h => by
    rw [PredicateDraft.realize, bind_eq_ok] at h
    obtain ⟨vs, hvs, h⟩ := h
    cases h
    exact proper_of_leaves trivial (OperandDraft.leaves_realizes values hvs)
  | .member column op none (some subquery), p, h => by
    rw [PredicateDraft.realize, bind_eq_ok] at h
    obtain ⟨q, hq, h⟩ := h
    cases h
    exact Subquery.proper_member (subquery.proper_realize hq) column op
  -- neither source or both: the draft is refused
  | .member column op none none, p, h | .member column op (some _) (some _), p, h => by
    cases h
  | .call function args, p, h => by
    rw [PredicateDraft.realize, bind_eq_ok] at h
    obtain ⟨as, has, h⟩ := h
    cases h
    exact .intro trivial (ArgumentDraft.proper_realizes args has)
  | .group op members, p, h => by
    rw [PredicateDraft.realize, bind_eq_ok] at h
    obtain ⟨ps, hps, h⟩ := h
    exact Connective.proper_realizeGroup (PredicateDraft.proper_realizes members hps) h

theorem PredicateDraft.proper_realizes :
    (ds : List PredicateDraft) → ∀ {ps : List Predicate}, PredicateDraft.realizes ds = .ok ps →
      ∀ p ∈ ps, p.Everywhere Proper
  | [], _, h => by
    cases h
    simp
  | d :: ds, ps, h => by
    obtain ⟨p, hp, rest, hrest, rfl⟩ := PredicateDraft.realizes_cons_eq_ok.mp h
    rw [List.forall_mem_cons]
    exact ⟨d.proper_realize hp, PredicateDraft.proper_realizes ds hrest⟩

/-- An argument that is realized keeps the rules throughout. -/
theorem ArgumentDraft.proper_realize :
    (d : ArgumentDraft) → ∀ {a : Argument}, d.realize = .ok a →
      ∀ p ∈ a.children, p.Everywhere Proper
  | .column reference, a, h => by
    cases h
    simp [Argument.children]
  | .predicate d, a, h => by
    rw [ArgumentDraft.realize, bind_eq_ok] at h
    obtain ⟨p, hp, h⟩ := h
    cases h
    rw [Argument.children, List.forall_mem_singleton]
    exact d.proper_realize hp

theorem ArgumentDraft.proper_realizes :
    (ds : List ArgumentDraft) → ∀ {as : List Argument}, ArgumentDraft.realizes ds = .ok as →
      ∀ p ∈ as.flatMap Argument.children, p.Everywhere Proper
  | [], _, h => by
    cases h
    simp
  | d :: ds, as, h => by
    obtain ⟨a, ha, rest, hrest, rfl⟩ := ArgumentDraft.realizes_cons_eq_ok.mp h
    rw [List.flatMap_cons, List.forall_mem_append]
    exact ⟨d.proper_realize ha, ArgumentDraft.proper_realizes ds hrest⟩

/-- A subquery keeps the rules with a join, which is attached only in scope. -/
theorem JoinDraft.proper_attachTo {q : Subquery} (hq : q.Proper) :
    (join : Option JoinDraft) → ∀ {attached : Subquery},
      JoinDraft.attachTo q join = .ok attached → attached.Proper
  | none, attached, h => by
    cases h
    exact hq
  | some ⟨kind, table, aliasName, on⟩, attached, h => by
    rw [JoinDraft.attachTo, bind_eq_ok] at h
    obtain ⟨p, hp, h⟩ := h
    rw [mapError_eq_ok] at h
    exact hq.attach (on.proper_realize hp) h

/-- A subquery keeps the rules with a filter, which is set only in scope. -/
theorem PredicateDraft.proper_restrictTo {q : Subquery} (hq : q.Proper) :
    (filter : Option PredicateDraft) → ∀ {restricted : Subquery},
      PredicateDraft.restrictTo q filter = .ok restricted → restricted.Proper
  | none, restricted, h => by
    cases h
    exact hq
  | some d, restricted, h => by
    rw [PredicateDraft.restrictTo, bind_eq_ok] at h
    obtain ⟨p, hp, h⟩ := h
    rw [mapError_eq_ok] at h
    exact hq.restrict (d.proper_realize hp) h

/-- A subquery that is realized keeps the rules, from its start over the join to the filter. -/
theorem SubqueryDraft.proper_realize :
    (d : SubqueryDraft) → ∀ {q : Subquery}, d.realize = .ok q → q.Proper
  | ⟨table, aliasName, columns, join, filter⟩, q, h => by
    rw [SubqueryDraft.realize, bind_eq_ok] at h
    obtain ⟨attached, hattached, h⟩ := h
    -- the join is attached first, so the filter may refer to its table
    exact PredicateDraft.proper_restrictTo
      (JoinDraft.proper_attachTo (proper_selecting table aliasName columns) join hattached) filter h

end

/-! ### Every part -/

namespace PredicateDraft

/-- **Nothing slips through a draft.** In the predicate of a draft, at any depth, each group
    has at least two members and none that is a group under the same connective, and each
    subquery brings in the tables that its `WHERE` and `ON` predicates refer to. -/
theorem realize_keeps_rules (draft : PredicateDraft) (p : Predicate) (h : draft.realize = .ok p) :
    ∀ part : Predicate, part.PartOf p →
      (∀ op members, part = .group op members →
        2 ≤ members.length ∧ ∀ m ∈ members, ∀ inner, m ≠ .group op inner) ∧
      (∀ column op q, part = .member column op (.subquery q) →
        ∀ clause ∈ q.conditions, ∀ table ∈ clause.tables, table ∈ q.available) := by
  intro part hpart
  -- the invariant holds at every depth, so at this part
  have hproper : part.Proper := (draft.proper_realize h).part hpart
  constructor
  · rintro op members rfl
    obtain ⟨hlength, hmembers⟩ := hproper
    exact ⟨hlength, fun m hm inner hinner => hmembers m hm ⟨inner, hinner⟩⟩
  · rintro column op q rfl clause hclause
    have hscoped : q.Scoped := hproper
    rw [Subquery.conditions, List.mem_append, Option.mem_toList, Option.mem_toList,
      Option.map_eq_some_iff] at hclause
    rcases hclause with ⟨j, hj, rfl⟩ | hfilter
    · exact fun table htable => hscoped.on_subset j hj htable
    · exact fun table htable => hscoped.filter_subset clause hfilter htable

/-- Groups in groups, one with a single member, around a subquery that joins a table and
    looks into a third one. -/
theorem realize_keeps_rules_nested :
    let draft : PredicateDraft :=
      .group .and
        [.group .or [.group .and [.isPublic "p", .null "a" .isNull]],
          .group .and [.alwaysTrue],
          .member "team_id" .inside none (some
            { table := "teams", aliasName := some "t", columns := ["t.id"],
              join := some
                { kind := .inner, table := "members", aliasName := none,
                  on := .compare "members.team_id" .eq (.raw "t.id") },
              filter := some (.group .or
                [.group .or [.isOwner "members.user_id", .isOwner "t.owner_id"],
                  .userBelongsTo "t.id" "guests" none]) })]
    ∃ p, draft.realize = .ok p ∧
      ∃ q, (Predicate.member "team_id" .inside (.subquery q)).PartOf p ∧
        q.available = ["t", "members"] ∧
        (∀ clause ∈ q.conditions, ∀ table ∈ clause.tables, table ∈ q.available) ∧
        ∃ members, (Predicate.group .or members).PartOf p ∧ members.length = 3 ∧
          ∀ m ∈ members, ∀ inner, m ≠ .group .or inner := by
  intro draft
  obtain ⟨p, hp⟩ : ∃ p, draft.realize = .ok p := ⟨_, rfl⟩
  -- the fourth member of the outer group, and the `WHERE` predicate of its subquery
  obtain ⟨q, hquery, havailable, members, hfilter, hlength⟩ :
      ∃ q, .member "team_id" .inside (.subquery q) ∈ p.children ∧ q.available = ["t", "members"] ∧
        ∃ members, .group .or members ∈ q.conditions ∧ members.length = 3 := by
    cases hp
    refine ⟨_, List.mem_of_getElem? (i := 3) rfl, ?_⟩
    exact ⟨by decide +kernel, _, List.mem_of_getElem? (i := 1) rfl, rfl⟩
  have hqueryPart : (Predicate.member "team_id" .inside (.subquery q)).PartOf p := .single hquery
  have hchild : .group .or members ∈ (Predicate.member "team_id" .inside (.subquery q)).children :=
    hfilter
  have hfilterPart : (Predicate.group .or members).PartOf p := .head hchild hqueryPart
  have hquery := realize_keeps_rules draft p hp _ hqueryPart
  have hgroup := realize_keeps_rules draft p hp _ hfilterPart
  exact ⟨p, hp, q, hqueryPart, havailable, hquery.2 _ _ q rfl, members, hfilterPart, hlength,
    (hgroup.1 .or members rfl).2⟩

end PredicateDraft

end RowPolicy
