import Mathlib.Logic.Relation
import RowPolicy.Proofs.Subquery.Scope

namespace RowPolicy

/-!
# Predicates that keep the rules everywhere

Two rules hold wherever predicates are built: a group has at least two members and none
that is a group under the same connective, and a subquery refers to no table out of its
scope.  They are meant for all parts of a predicate, however deep they stand:

* `Predicate.children`, `Predicate.PartOf` — the predicates that stand directly in a
  predicate, and those at any depth;
* `Predicate.Proper` — the two rules for one predicate;
* `Predicate.Everywhere` — a property of a predicate and of all its parts;
* `Predicate.everywhere_combine`, `Predicate.everywhere_fold` — combining keeps the rule for
  groups;
* `Subquery.Proper.attach`, `Subquery.Proper.restrict` — building subqueries does.
-/

/-! ### Parts -/

mutual

/-- The predicates that stand directly in an operand. -/
def Operand.children : Operand → List Predicate
  | .predicate p => [p]
  | .array items => Operand.childrenOf items
  | _ => []

/-- Those in some operands. -/
def Operand.childrenOf : List Operand → List Predicate
  | [] => []
  | v :: vs => v.children ++ Operand.childrenOf vs

end

/-- The predicate that an argument is, if it is one. -/
def Argument.children : Argument → List Predicate
  | .column _ => []
  | .predicate p => [p]

/-- The `ON` and `WHERE` predicates of a subquery. -/
def Subquery.conditions (q : Subquery) : List Predicate :=
  (q.join.map Join.on).toList ++ q.filter.toList

/-- The predicates that stand directly in a source of values. -/
def Source.children : Source → List Predicate
  | .values items => Operand.childrenOf items
  | .subquery q => q.conditions

namespace Predicate

/-- The predicates that stand directly in a predicate. -/
def children : Predicate → List Predicate
  | compare _ _ operand => operand.children
  | member _ _ source => source.children
  | group _ members => members
  | helper _ params => params.flatMap fun p => p.2.children
  | call _ args => args.flatMap Argument.children
  | _ => []

/-- A predicate that is another one or stands in it, at any depth. -/
def PartOf (part whole : Predicate) : Prop :=
  Relation.ReflTransGen (fun p q => p ∈ q.children) part whole

/-- A property of a predicate and of all predicates in it. -/
inductive Everywhere (P : Predicate → Prop) : Predicate → Prop
  | intro {p : Predicate} : P p → (∀ c ∈ p.children, Everywhere P c) → Everywhere P p

/-- What holds throughout a predicate holds of it. -/
theorem Everywhere.here {P : Predicate → Prop} {p : Predicate} (h : p.Everywhere P) : P p := by
  cases h with
  | intro hp _ => exact hp

/-- What holds throughout a predicate holds throughout each predicate directly in it. -/
theorem Everywhere.child {P : Predicate → Prop} {p c : Predicate} (h : p.Everywhere P)
    (hc : c ∈ p.children) : c.Everywhere P := by
  cases h with
  | intro _ hchildren => exact hchildren c hc

/-- What holds throughout a predicate holds of every part of it, at any depth. -/
theorem Everywhere.part {P : Predicate → Prop} {p part : Predicate} (h : p.Everywhere P)
    (hpart : part.PartOf p) : P part := by
  -- from the whole downwards, one child after the other
  have hall : part.Everywhere P := by
    induction hpart using Relation.ReflTransGen.head_induction_on with
    | refl => exact h
    | head hchild _ ih => exact ih.child hchild
  exact hall.here

/-! ### The rules -/

/-- A group under a connective. -/
def IsGroup (op : Connective) (p : Predicate) : Prop := ∃ members, p = group op members

/-- A group has two members or more and none that is a group under the same connective; a
    subquery has its tables in scope. -/
def Proper : Predicate → Prop
  | group op members => 2 ≤ members.length ∧ ∀ m ∈ members, ¬ m.IsGroup op
  | member _ _ (.subquery q) => q.Scoped
  | _ => True

/-- What holds of a predicate with no other in it holds throughout it. -/
theorem everywhere_of_leaf {P : Predicate → Prop} {p : Predicate} (h : p.children = []) (hp : P p) :
    p.Everywhere P :=
  .intro hp (by simp [h])

/-- A rule that asks of a group to have two members or more and none that is a group under
    the same connective; what it asks of other predicates is open. -/
def IsGroupRule (P : Predicate → Prop) : Prop :=
  ∀ op members, P (group op members) ↔ 2 ≤ members.length ∧ ∀ m ∈ members, ¬ m.IsGroup op

/-- The rules ask of a group just what such a rule does. -/
theorem isGroupRule_proper : IsGroupRule Proper := fun _ _ => Iff.rfl

/-! ### Combining -/

section

variable {P : Predicate → Prop} (hP : IsGroupRule P)

include hP

/-- A group keeps the rule throughout if it has members enough, and they keep it and are not
    spliced. -/
theorem everywhere_group {op : Connective} {members : List Predicate} (hlength : 2 ≤ members.length)
    (h : ∀ m ∈ members, m.Everywhere P ∧ ¬ m.IsGroup op) : (group op members).Everywhere P :=
  .intro ((hP op members).mpr ⟨hlength, fun m hm => (h m hm).2⟩) fun m hm => (h m hm).1

/-- What a predicate brings into a group may stand there. -/
theorem everywhere_operands (op : Connective) {p : Predicate} (h : p.Everywhere P) :
    p.operands op ≠ [] ∧ ∀ m ∈ p.operands op, m.Everywhere P ∧ ¬ m.IsGroup op := by
  have hself (hother : ¬ p.IsGroup op) :
      [p] ≠ [] ∧ ∀ m ∈ [p], m.Everywhere P ∧ ¬ m.IsGroup op := by
    refine ⟨List.cons_ne_nil p [], fun m hm => ?_⟩
    rw [List.mem_singleton] at hm
    exact hm ▸ ⟨h, hother⟩
  cases p with
  -- a group under the same connective gives up its members, of which none is such a group
  | group inner members =>
    rw [operands]
    by_cases hop : inner = op
    · rw [if_pos hop]
      obtain ⟨hlength, hmembers⟩ := (hP inner members).mp h.here
      refine ⟨List.ne_nil_of_length_pos (by omega), fun m hm => ⟨h.child hm, ?_⟩⟩
      exact hop ▸ hmembers m hm
    · rw [if_neg hop]
      apply hself
      rintro ⟨others, hothers⟩
      cases hothers
      exact hop rfl
  | _ =>
    apply hself
    rintro ⟨members, hmembers⟩
    cases hmembers

/-- Combining two predicates that keep the rule makes one that does. -/
theorem everywhere_combine (op : Connective) {p q : Predicate} (hp : p.Everywhere P)
    (hq : q.Everywhere P) : (combine op p q).Everywhere P := by
  obtain ⟨hpne, hpall⟩ := everywhere_operands hP op hp
  obtain ⟨hqne, hqall⟩ := everywhere_operands hP op hq
  refine everywhere_group hP ?_ (List.forall_mem_append.mpr ⟨hpall, hqall⟩)
  have hpone := List.length_pos_iff_ne_nil.mpr hpne
  have hqone := List.length_pos_iff_ne_nil.mpr hqne
  rw [List.length_append]
  omega

/-- A list of predicates that keep the rule, combined from the left, makes one that does;
    a single predicate stays what it is. -/
theorem everywhere_fold {op : Connective} {ps : List Predicate} (h : ∀ p ∈ ps, p.Everywhere P)
    {p : Predicate} (hp : fold? op ps = some p) : p.Everywhere P := by
  cases ps with
  | nil => cases hp
  | cons first rest =>
    cases hp
    rw [List.forall_mem_cons] at h
    obtain ⟨hfirst, hrest⟩ := h
    -- the induction is on what is still to be folded in
    induction rest generalizing first with
    | nil => exact hfirst
    | cons next rest ih =>
      rw [List.forall_mem_cons] at hrest
      exact ih (combine op first next) (everywhere_combine hP op hfirst hrest.1) hrest.2

end

end Predicate

/-! ### Subqueries -/

namespace Subquery

/-- A subquery with its tables in scope, whose predicates keep the rules. -/
structure Proper (q : Subquery) : Prop where
  inScope : q.Scoped
  conditions : ∀ p ∈ q.conditions, p.Everywhere Predicate.Proper

/-- A membership in a subquery that keeps the rules keeps them. -/
theorem proper_member {q : Subquery} (h : q.Proper) (column : String) (op : Membership) :
    (Predicate.member column op (.subquery q)).Everywhere Predicate.Proper :=
  .intro h.inScope h.conditions

/-- A table by itself keeps the rules, as it has no clauses. -/
theorem proper_ofTable (table : String) (aliasName : Option String) :
    (ofTable table aliasName).Proper :=
  ⟨scoped_ofTable table aliasName, by simp [Subquery.conditions, ofTable]⟩

/-- Selecting columns leaves the clauses as they are. -/
theorem Proper.select {q : Subquery} (h : q.Proper) (columns : List String) :
    (q.select columns).Proper :=
  ⟨h.inScope.apply (s := .select columns) rfl, h.conditions⟩

/-- A join that is attached keeps the rules if its condition does. -/
theorem Proper.attach {q attached : Subquery} (h : q.Proper) {j : Join}
    (hon : j.on.Everywhere Predicate.Proper) (hattach : q.attach j = .ok attached) :
    attached.Proper := by
  refine ⟨h.inScope.apply (s := .attach j) hattach, ?_⟩
  obtain ⟨-, -, rfl⟩ := apply_eq_ok (s := .attach j).mp hattach
  have hfilter : ∀ p ∈ q.filter.toList, p.Everywhere Predicate.Proper := fun p hp =>
    h.conditions p (List.mem_append_right _ hp)
  exact List.forall_mem_append.mpr ⟨by simpa [effect] using hon, hfilter⟩

/-- A filter that is set keeps the rules if it does, alone or beside the one already there. -/
theorem Proper.restrict {q restricted : Subquery} (h : q.Proper) {p : Predicate}
    (hp : p.Everywhere Predicate.Proper) (hrestrict : q.restrict p = .ok restricted) :
    restricted.Proper := by
  refine ⟨h.inScope.apply (s := .restrict p) hrestrict, ?_⟩
  obtain ⟨-, -, rfl⟩ := apply_eq_ok (s := .restrict p).mp hrestrict
  obtain ⟨hon, hfilter⟩ := List.forall_mem_append.mp h.conditions
  refine List.forall_mem_append.mpr ⟨hon, ?_⟩
  rw [effect, addFilter]
  -- two filters are combined as a group is
  cases hold : q.filter with
  | none => simpa using hp
  | some existing =>
    have hexisting : existing.Everywhere Predicate.Proper := hfilter existing (by simp [hold])
    have hboth : (existing.and p).Everywhere Predicate.Proper :=
      Predicate.everywhere_combine Predicate.isGroupRule_proper .and hexisting hp
    simpa using hboth

end Subquery

end RowPolicy
