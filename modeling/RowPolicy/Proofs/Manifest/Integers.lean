import RowPolicy.Proofs.Json.Integers
import RowPolicy.Proofs.Manifest.Realize

namespace RowPolicy

/-!
# Integers in drafts

A draft holds integers of any size, in its operands and in what these stand in:

* `IsInt64` — the integers that may become part of a policy;
* `OperandDraft.integers`, `PredicateDraft.integers`, `Manifest.integers` — the integers in
  drafts;
* `OperandDraft.mapIntegers`, `PredicateDraft.mapIntegers`, `Manifest.mapIntegers` — drafts
  with other operands in place of their integers;
* `Manifest.mapIntegers_eq_self_iff` — when nothing is replaced.
-/

/-! ### The integers in a draft -/

/-- The integers of 64 bits with a sign. -/
def IsInt64 (n : Int) : Prop := Int64.minValue.toInt ≤ n ∧ n ≤ Int64.maxValue.toInt

instance (n : Int) : Decidable (IsInt64 n) := inferInstanceAs (Decidable (_ ∧ _))

mutual

/-- The integers in a draft of an operand. -/
def OperandDraft.integers : OperandDraft → List Int
  | .integer n => [n]
  | .array items => OperandDraft.integersOf items
  | _ => []

/-- Those in some drafts. -/
def OperandDraft.integersOf : List OperandDraft → List Int
  | [] => []
  | v :: vs => v.integers ++ OperandDraft.integersOf vs

end

/-- Those in the values of a membership, if there are any. -/
def OperandDraft.integersOf? : Option (List OperandDraft) → List Int
  | none => []
  | some values => OperandDraft.integersOf values

mutual

/-- The integers in a draft of a predicate. -/
def PredicateDraft.integers : PredicateDraft → List Int
  | .compare _ _ operand => operand.integers
  | .member _ _ values subquery =>
    OperandDraft.integersOf? values ++ SubqueryDraft.integers? subquery
  | .call _ args => ArgumentDraft.integersOf args
  | .group _ members => PredicateDraft.integersOf members
  | _ => []

/-- Those in some drafts. -/
def PredicateDraft.integersOf : List PredicateDraft → List Int
  | [] => []
  | p :: ps => p.integers ++ PredicateDraft.integersOf ps

/-- Those in a draft, if there is one. -/
def PredicateDraft.integers? : Option PredicateDraft → List Int
  | none => []
  | some p => p.integers

/-- Those in a draft of an argument. -/
def ArgumentDraft.integers : ArgumentDraft → List Int
  | .column _ => []
  | .predicate p => p.integers

/-- Those in some drafts of arguments. -/
def ArgumentDraft.integersOf : List ArgumentDraft → List Int
  | [] => []
  | a :: as => a.integers ++ ArgumentDraft.integersOf as

/-- Those in a draft of a join. -/
def JoinDraft.integers : JoinDraft → List Int
  | ⟨_, _, _, on⟩ => on.integers

/-- Those in a draft of a join, if there is one. -/
def JoinDraft.integers? : Option JoinDraft → List Int
  | none => []
  | some join => join.integers

/-- Those in a draft of a subquery. -/
def SubqueryDraft.integers : SubqueryDraft → List Int
  | ⟨_, _, _, join, filter⟩ => JoinDraft.integers? join ++ PredicateDraft.integers? filter

/-- Those in a draft of a subquery, if there is one. -/
def SubqueryDraft.integers? : Option SubqueryDraft → List Int
  | none => []
  | some q => q.integers

end

/-- The integers in a draft of a policy. -/
def PolicyDraft.integers (draft : PolicyDraft) : List Int :=
  PredicateDraft.integers? draft.allow ++
    (PredicateDraft.integers? draft.usingExpr ++ PredicateDraft.integers? draft.checkExpr)

/-- The integers in a draft of a group. -/
def GroupDraft.integers (draft : GroupDraft) : List Int :=
  draft.policies.flatMap PolicyDraft.integers

/-- The integers in a manifest. -/
def Manifest.integers (m : Manifest) : List Int := m.groups.flatMap GroupDraft.integers

/-! ### Other operands in their place -/

section

variable (f : Int → OperandDraft)

mutual

/-- A draft of an operand with `f n` in place of each integer `n`. -/
def OperandDraft.mapIntegers : OperandDraft → OperandDraft
  | .integer n => f n
  | .array items => .array (OperandDraft.mapIntegersOf items)
  | v => v

/-- Some drafts with `f n` in place of each integer `n`. -/
def OperandDraft.mapIntegersOf : List OperandDraft → List OperandDraft
  | [] => []
  | v :: vs => v.mapIntegers :: OperandDraft.mapIntegersOf vs

end

mutual

/-- A draft of a predicate with `f n` in place of each integer `n`. -/
def PredicateDraft.mapIntegers : PredicateDraft → PredicateDraft
  | .compare column op operand => .compare column op (operand.mapIntegers f)
  | .member column op values subquery =>
    .member column op (values.map (OperandDraft.mapIntegersOf f))
      (SubqueryDraft.mapIntegers? subquery)
  | .call function args => .call function (ArgumentDraft.mapIntegersOf args)
  | .group op members => .group op (PredicateDraft.mapIntegersOf members)
  | p => p

/-- Some drafts with `f n` in place of each integer `n`. -/
def PredicateDraft.mapIntegersOf : List PredicateDraft → List PredicateDraft
  | [] => []
  | p :: ps => p.mapIntegers :: PredicateDraft.mapIntegersOf ps

/-- A draft, if there is one, with `f n` in place of each integer `n`. -/
def PredicateDraft.mapIntegers? : Option PredicateDraft → Option PredicateDraft
  | none => none
  | some p => some p.mapIntegers

/-- A draft of an argument with `f n` in place of each integer `n`. -/
def ArgumentDraft.mapIntegers : ArgumentDraft → ArgumentDraft
  | .column reference => .column reference
  | .predicate p => .predicate p.mapIntegers

/-- Some drafts of arguments with `f n` in place of each integer `n`. -/
def ArgumentDraft.mapIntegersOf : List ArgumentDraft → List ArgumentDraft
  | [] => []
  | a :: as => a.mapIntegers :: ArgumentDraft.mapIntegersOf as

/-- A draft of a join with `f n` in place of each integer `n`. -/
def JoinDraft.mapIntegers : JoinDraft → JoinDraft
  | ⟨kind, table, aliasName, on⟩ => ⟨kind, table, aliasName, on.mapIntegers⟩

/-- A draft of a join, if there is one, with `f n` in place of each integer `n`. -/
def JoinDraft.mapIntegers? : Option JoinDraft → Option JoinDraft
  | none => none
  | some join => some join.mapIntegers

/-- A draft of a subquery with `f n` in place of each integer `n`. -/
def SubqueryDraft.mapIntegers : SubqueryDraft → SubqueryDraft
  | ⟨table, aliasName, columns, join, filter⟩ =>
    ⟨table, aliasName, columns, JoinDraft.mapIntegers? join, PredicateDraft.mapIntegers? filter⟩

/-- A draft of a subquery, if there is one, with `f n` in place of each integer `n`. -/
def SubqueryDraft.mapIntegers? : Option SubqueryDraft → Option SubqueryDraft
  | none => none
  | some q => some q.mapIntegers

end

/-- A draft of a policy with `f n` in place of each integer `n`. -/
def PolicyDraft.mapIntegers (draft : PolicyDraft) : PolicyDraft :=
  { draft with
    usingExpr := PredicateDraft.mapIntegers? f draft.usingExpr
    checkExpr := PredicateDraft.mapIntegers? f draft.checkExpr
    allow := PredicateDraft.mapIntegers? f draft.allow }

/-- A draft of a group with `f n` in place of each integer `n`. -/
def GroupDraft.mapIntegers (draft : GroupDraft) : GroupDraft :=
  { draft with policies := draft.policies.map (·.mapIntegers f) }

/-- A manifest with `f n` in place of each integer `n`. -/
def Manifest.mapIntegers (m : Manifest) : Manifest where
  groups := m.groups.map (·.mapIntegers f)

end

/-! ### Nothing replaced -/

section

variable {f : Int → OperandDraft}

mutual

/-- An operand stays as it is if and only if each integer in it does, in arrays too. -/
theorem OperandDraft.mapIntegers_eq_self_iff : (v : OperandDraft) →
    (v.mapIntegers f = v ↔ ∀ n ∈ v.integers, f n = .integer n)
  | .integer n => by simp [mapIntegers, integers]
  | .array items => by
    rw [mapIntegers, integers, OperandDraft.array.injEq]
    exact mapIntegersOf_eq_self_iff items
  | .null | .bool _ | .float _ | .text _ | .instant _ | .context _ | .raw _ => by
    simp [mapIntegers, integers]

theorem OperandDraft.mapIntegersOf_eq_self_iff : (vs : List OperandDraft) →
    (mapIntegersOf f vs = vs ↔ ∀ n ∈ integersOf vs, f n = .integer n)
  | [] => by simp [mapIntegersOf, integersOf]
  | v :: vs => by
    rw [mapIntegersOf, integersOf, List.cons.injEq, List.forall_mem_append,
      v.mapIntegers_eq_self_iff, mapIntegersOf_eq_self_iff vs]

end

mutual

/-- A predicate stays as it is if and only if each integer in it does, in subqueries and members
    too. -/
theorem PredicateDraft.mapIntegers_eq_self_iff : (p : PredicateDraft) →
    (p.mapIntegers f = p ↔ ∀ n ∈ p.integers, f n = .integer n)
  -- the parts of a predicate are put together field by field, each by its own equivalence
  | .compare column op operand => by
    simp [PredicateDraft.mapIntegers, PredicateDraft.integers, operand.mapIntegers_eq_self_iff]
  | .member column op values subquery => by
    have hvalues : values.map (OperandDraft.mapIntegersOf f) = values ↔
        ∀ n ∈ OperandDraft.integersOf? values, f n = .integer n := by
      cases values with
      | none => simp [OperandDraft.integersOf?]
      | some values =>
        rw [Option.map_some, Option.some.injEq]
        exact OperandDraft.mapIntegersOf_eq_self_iff values
    rw [PredicateDraft.mapIntegers, PredicateDraft.integers, List.forall_mem_append, ← hvalues,
      ← SubqueryDraft.mapIntegersOpt_eq_self_iff subquery]
    simp
  | .call function args => by
    simp [PredicateDraft.mapIntegers, PredicateDraft.integers,
      ArgumentDraft.mapIntegersOf_eq_self_iff args]
  | .group op members => by
    simp [PredicateDraft.mapIntegers, PredicateDraft.integers,
      PredicateDraft.mapIntegersOf_eq_self_iff members]
  | .pattern .. | .null .. | .isOwner _ | .isPublic _ | .belongsToTenant .. | .isMemberOf ..
  | .userBelongsTo .. | .releasedBefore .. | .hasRole .. | .alwaysTrue => by
    simp [PredicateDraft.mapIntegers, PredicateDraft.integers]

theorem PredicateDraft.mapIntegersOf_eq_self_iff : (ps : List PredicateDraft) →
    (PredicateDraft.mapIntegersOf f ps = ps ↔
      ∀ n ∈ PredicateDraft.integersOf ps, f n = .integer n)
  | [] => by simp [PredicateDraft.mapIntegersOf, PredicateDraft.integersOf]
  | p :: ps => by
    rw [PredicateDraft.mapIntegersOf, PredicateDraft.integersOf, List.cons.injEq,
      List.forall_mem_append, p.mapIntegers_eq_self_iff,
      PredicateDraft.mapIntegersOf_eq_self_iff ps]

/-- A predicate that may be missing stays as it is if and only if each integer in it does. -/
theorem PredicateDraft.mapIntegersOpt_eq_self_iff : (p : Option PredicateDraft) →
    (PredicateDraft.mapIntegers? f p = p ↔ ∀ n ∈ PredicateDraft.integers? p, f n = .integer n)
  | none => by simp [PredicateDraft.mapIntegers?, PredicateDraft.integers?]
  | some p => by
    rw [PredicateDraft.mapIntegers?, PredicateDraft.integers?, Option.some.injEq,
      p.mapIntegers_eq_self_iff]

/-- An argument stays as it is if and only if each integer in it does. -/
theorem ArgumentDraft.mapIntegers_eq_self_iff : (a : ArgumentDraft) →
    (a.mapIntegers f = a ↔ ∀ n ∈ a.integers, f n = .integer n)
  | .column _ => by simp [ArgumentDraft.mapIntegers, ArgumentDraft.integers]
  | .predicate p => by
    rw [ArgumentDraft.mapIntegers, ArgumentDraft.integers, ArgumentDraft.predicate.injEq,
      p.mapIntegers_eq_self_iff]

theorem ArgumentDraft.mapIntegersOf_eq_self_iff : (as : List ArgumentDraft) →
    (ArgumentDraft.mapIntegersOf f as = as ↔
      ∀ n ∈ ArgumentDraft.integersOf as, f n = .integer n)
  | [] => by simp [ArgumentDraft.mapIntegersOf, ArgumentDraft.integersOf]
  | a :: as => by
    rw [ArgumentDraft.mapIntegersOf, ArgumentDraft.integersOf, List.cons.injEq,
      List.forall_mem_append, a.mapIntegers_eq_self_iff, ArgumentDraft.mapIntegersOf_eq_self_iff as]

/-- A join that may be missing stays as it is if and only if each integer in it does. -/
theorem JoinDraft.mapIntegersOpt_eq_self_iff : (join : Option JoinDraft) →
    (JoinDraft.mapIntegers? f join = join ↔ ∀ n ∈ JoinDraft.integers? join, f n = .integer n)
  | none => by simp [JoinDraft.mapIntegers?, JoinDraft.integers?]
  | some ⟨kind, table, aliasName, on⟩ => by
    simp [JoinDraft.mapIntegers?, JoinDraft.mapIntegers, JoinDraft.integers?, JoinDraft.integers,
      on.mapIntegers_eq_self_iff]

/-- A subquery that may be missing stays as it is if and only if each integer in it does. -/
theorem SubqueryDraft.mapIntegersOpt_eq_self_iff : (q : Option SubqueryDraft) →
    (SubqueryDraft.mapIntegers? f q = q ↔ ∀ n ∈ SubqueryDraft.integers? q, f n = .integer n)
  | none => by simp [SubqueryDraft.mapIntegers?, SubqueryDraft.integers?]
  | some ⟨table, aliasName, columns, join, filter⟩ => by
    rw [SubqueryDraft.mapIntegers?, SubqueryDraft.mapIntegers, SubqueryDraft.integers?,
      SubqueryDraft.integers, List.forall_mem_append,
      ← JoinDraft.mapIntegersOpt_eq_self_iff join,
      ← PredicateDraft.mapIntegersOpt_eq_self_iff filter]
    simp

end

/-- A policy stays as it is if and only if each integer in its three predicates does. -/
theorem PolicyDraft.mapIntegers_eq_self_iff (draft : PolicyDraft) :
    draft.mapIntegers f = draft ↔ ∀ n ∈ draft.integers, f n = .integer n := by
  rw [integers, List.forall_mem_append, List.forall_mem_append,
    ← PredicateDraft.mapIntegersOpt_eq_self_iff, ← PredicateDraft.mapIntegersOpt_eq_self_iff,
    ← PredicateDraft.mapIntegersOpt_eq_self_iff, mapIntegers]
  cases draft
  simp
  tauto

/-- What holds of each entry of a list holds of the list. -/
theorem map_eq_self_iff {α : Type} {map : α → α} {integers : α → List Int}
    (h : ∀ x, map x = x ↔ ∀ n ∈ integers x, f n = .integer n) (xs : List α) :
    xs.map map = xs ↔ ∀ n ∈ xs.flatMap integers, f n = .integer n := by
  induction xs with
  | nil => simp
  | cons x xs ih =>
    rw [List.map_cons, List.cons.injEq, List.flatMap_cons, List.forall_mem_append, h, ih]

/-- A group stays as it is if and only if each integer in it does. -/
theorem GroupDraft.mapIntegers_eq_self_iff (draft : GroupDraft) :
    draft.mapIntegers f = draft ↔ ∀ n ∈ draft.integers, f n = .integer n := by
  rw [integers, ← map_eq_self_iff PolicyDraft.mapIntegers_eq_self_iff, mapIntegers]
  cases draft
  simp

/-- A manifest stays as it is if and only if its integers do. -/
theorem Manifest.mapIntegers_eq_self_iff (m : Manifest) :
    m.mapIntegers f = m ↔ ∀ n ∈ m.integers, f n = .integer n := by
  rw [integers, ← map_eq_self_iff GroupDraft.mapIntegers_eq_self_iff, mapIntegers]
  cases m
  simp

end

end RowPolicy
