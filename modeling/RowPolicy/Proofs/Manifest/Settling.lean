import RowPolicy.Proofs.Manifest.Integers

namespace RowPolicy

/-!
# Integers that are refused

Realizing a draft refuses an integer in it that fits 64 bits only without a sign.  Up to the
first such integer it does what it does with other operands in their place:

* `OnlyUnsigned` — the integers that fit 64 bits only without a sign;
* `Settles` — what one computation does with some integers, seen from another one;
* `PredicateDraft.settles_realize`, `PolicyDraft.settles_realize`, `Manifest.settles_realize` —
  the integers of a draft settle how it is realized.
-/

/-! ### Computations that refuse an integer -/

/-- The integers that fit 64 bits only without a sign. -/
def OnlyUnsigned (n : Int) : Prop := Json.IsWord n ∧ ¬ IsInt64 n

instance (n : Int) : Decidable (OnlyUnsigned n) := inferInstanceAs (Decidable (_ ∧ _))

section

variable {α β : Type}

/-- Either the first computation refuses one of the integers, since it fits 64 bits only
    without a sign, or it does what the second one does, and succeeds only if there is no
    such integer. -/
def Settles (ns : List Int) (x y : Except Refusal α) : Prop :=
  (∃ n ∈ ns, OnlyUnsigned n ∧ x = .error (.integerRange n)) ∨
    (x = y ∧ ∀ a, x = .ok a → ∀ n ∈ ns, ¬ OnlyUnsigned n)

namespace Settles

/-- A computation settles nothing against itself, where no integer is at stake. -/
theorem same (x : Except Refusal α) : Settles [] x x := .inr ⟨rfl, by simp⟩

/-- A refusal for anything else comes before the integers and is the same. -/
theorem refusal (ns : List Int) (r : Refusal) :
    Settles ns (.error r : Except Refusal α) (.error r) :=
  .inr ⟨rfl, fun _ h => nomatch h⟩

/-- Computations in a row settle the integers of both, and the first to refuse one decides. -/
theorem bind {ns ms : List Int} {x y : Except Refusal α} (h : Settles ns x y)
    {f g : α → Except Refusal β} (hfg : ∀ a, Settles ms (f a) (g a)) :
    Settles (ns ++ ms) (x >>= f) (y >>= g) := by
  -- the first one refused, or both agreed so far and the second ones decide
  obtain ⟨n, hn, hlarge, rfl⟩ | ⟨rfl, hnone⟩ := h
  · exact .inl ⟨n, List.mem_append_left _ hn, hlarge, rfl⟩
  · cases x with
    | error r => exact refusal _ r
    | ok a =>
      obtain ⟨n, hn, hlarge, hx⟩ | ⟨hx, hrest⟩ := hfg a
      · exact .inl ⟨n, List.mem_append_right _ hn, hlarge, hx⟩
      · refine .inr ⟨hx, fun b hb => ?_⟩
        rw [List.forall_mem_append]
        exact ⟨hnone a rfl, hrest b hb⟩

/-- Whatever comes behind takes no notice of integers. -/
theorem andThen {ns : List Int} {x y : Except Refusal α} (h : Settles ns x y)
    (f : α → Except Refusal β) : Settles ns (x >>= f) (y >>= f) := by
  rw [← List.append_nil ns]
  exact h.bind fun a => same (f a)

/-- A list is settled entry by entry, from the left. -/
theorem mapM {δ : Type} {integers : δ → List Int} {f g : δ → δ} {realize : δ → Except Refusal α}
    (h : ∀ d, Settles (integers d) (realize (f d)) (realize (g d))) (ds : List δ) :
    Settles (ds.flatMap integers) ((ds.map f).mapM realize) ((ds.map g).mapM realize) := by
  induction ds with
  | nil => exact same _
  | cons d ds ih =>
    rw [List.map_cons, List.map_cons, List.mapM_cons, List.mapM_cons, List.flatMap_cons]
    exact (h d).bind fun a => ih.andThen _

end Settles

end

/-! ### Predicates, operands and subqueries -/

section

/-- Of two ways to read an integer, the first one refuses it for its size or agrees with the
    second one. -/
def SettlesEach (f g : Int → OperandDraft) : Prop :=
  ∀ n, Settles [n] (f n).realize (g n).realize

variable {f g : Int → OperandDraft}

namespace OperandDraft

mutual

/-- An operand is settled by its integers, of which an array may have many. -/
theorem settles_realize (h : SettlesEach f g) : (v : OperandDraft) →
    Settles v.integers (v.mapIntegers f).realize (v.mapIntegers g).realize
  | .integer n => h n
  | .array items => by
    rw [mapIntegers, mapIntegers, realize, realize, integers]
    exact (settles_realizes h items).andThen _
  | .null | .bool _ | .float _ | .text _ | .instant _ | .context _ | .raw _ => Settles.same _

theorem settles_realizes (h : SettlesEach f g) : (vs : List OperandDraft) →
    Settles (integersOf vs) (realizes (mapIntegersOf f vs)) (realizes (mapIntegersOf g vs))
  | [] => Settles.same _
  | v :: vs => by
    rw [mapIntegersOf, mapIntegersOf, realizes, realizes, integersOf]
    exact (settles_realize h v).bind fun operand => (settles_realizes h vs).andThen _

end

end OperandDraft

mutual

/-- A predicate is settled by the integers in it, and refused for anything else as before. -/
theorem PredicateDraft.settles_realize (h : SettlesEach f g) : (p : PredicateDraft) →
    Settles p.integers (p.mapIntegers f).realize (p.mapIntegers g).realize
  | .compare column op operand => by
    rw [PredicateDraft.mapIntegers, PredicateDraft.mapIntegers, PredicateDraft.realize,
      PredicateDraft.realize, PredicateDraft.integers]
    exact (operand.settles_realize h).andThen _
  | .member column op (some values) none => by
    simp only [PredicateDraft.mapIntegers, SubqueryDraft.mapIntegers?, Option.map_some,
      PredicateDraft.realize, PredicateDraft.integers, OperandDraft.integersOf?,
      SubqueryDraft.integers?, List.append_nil]
    exact (OperandDraft.settles_realizes h values).andThen _
  | .member column op none (some subquery) => by
    simp only [PredicateDraft.mapIntegers, SubqueryDraft.mapIntegers?, Option.map_none,
      PredicateDraft.realize, PredicateDraft.integers, OperandDraft.integersOf?,
      SubqueryDraft.integers?, List.nil_append]
    exact (SubqueryDraft.settles_realize h subquery).andThen _
  -- neither source or both: nothing is realized, so no integer is read
  | .member column op none none => Settles.refusal _ _
  | .member column op (some values) (some subquery) => Settles.refusal _ _
  | .call function args => by
    rw [PredicateDraft.mapIntegers, PredicateDraft.mapIntegers, PredicateDraft.realize,
      PredicateDraft.realize, PredicateDraft.integers]
    exact (ArgumentDraft.settles_realizes h args).andThen _
  | .group op members => by
    rw [PredicateDraft.mapIntegers, PredicateDraft.mapIntegers, PredicateDraft.realize,
      PredicateDraft.realize, PredicateDraft.integers]
    exact (PredicateDraft.settles_realizes h members).andThen _
  | .pattern .. | .null .. | .isOwner _ | .isPublic _ | .belongsToTenant .. | .isMemberOf ..
  | .userBelongsTo .. | .releasedBefore .. | .hasRole .. | .alwaysTrue => Settles.same _

theorem PredicateDraft.settles_realizes (h : SettlesEach f g) : (ps : List PredicateDraft) →
    Settles (PredicateDraft.integersOf ps)
      (PredicateDraft.realizes (PredicateDraft.mapIntegersOf f ps))
      (PredicateDraft.realizes (PredicateDraft.mapIntegersOf g ps))
  | [] => Settles.same _
  | p :: ps => by
    rw [PredicateDraft.mapIntegersOf, PredicateDraft.mapIntegersOf, PredicateDraft.realizes,
      PredicateDraft.realizes, PredicateDraft.integersOf]
    exact (p.settles_realize h).bind fun predicate =>
      (PredicateDraft.settles_realizes h ps).andThen _

/-- An argument is settled by the integers of its predicate. -/
theorem ArgumentDraft.settles_realize (h : SettlesEach f g) : (a : ArgumentDraft) →
    Settles a.integers (a.mapIntegers f).realize (a.mapIntegers g).realize
  | .column _ => Settles.same _
  | .predicate p => by
    rw [ArgumentDraft.mapIntegers, ArgumentDraft.mapIntegers, ArgumentDraft.realize,
      ArgumentDraft.realize, ArgumentDraft.integers]
    exact (p.settles_realize h).andThen _

theorem ArgumentDraft.settles_realizes (h : SettlesEach f g) : (as : List ArgumentDraft) →
    Settles (ArgumentDraft.integersOf as)
      (ArgumentDraft.realizes (ArgumentDraft.mapIntegersOf f as))
      (ArgumentDraft.realizes (ArgumentDraft.mapIntegersOf g as))
  | [] => Settles.same _
  | a :: as => by
    rw [ArgumentDraft.mapIntegersOf, ArgumentDraft.mapIntegersOf, ArgumentDraft.realizes,
      ArgumentDraft.realizes, ArgumentDraft.integersOf]
    exact (a.settles_realize h).bind fun argument => (ArgumentDraft.settles_realizes h as).andThen _

/-- A join is settled by the integers of its condition, whatever its scope then says. -/
theorem JoinDraft.settles_attachTo (h : SettlesEach f g) (q : Subquery) :
    (join : Option JoinDraft) →
    Settles (JoinDraft.integers? join) (JoinDraft.attachTo q (JoinDraft.mapIntegers? f join))
      (JoinDraft.attachTo q (JoinDraft.mapIntegers? g join))
  | none => Settles.same _
  | some ⟨kind, table, aliasName, on⟩ => by
    rw [JoinDraft.mapIntegers?, JoinDraft.mapIntegers?, JoinDraft.mapIntegers,
      JoinDraft.mapIntegers, JoinDraft.attachTo, JoinDraft.attachTo, JoinDraft.integers?,
      JoinDraft.integers]
    exact (on.settles_realize h).andThen _

/-- A filter is settled by its integers, whatever its scope then says. -/
theorem PredicateDraft.settles_restrictTo (h : SettlesEach f g) (q : Subquery) :
    (filter : Option PredicateDraft) →
    Settles (PredicateDraft.integers? filter)
      (PredicateDraft.restrictTo q (PredicateDraft.mapIntegers? f filter))
      (PredicateDraft.restrictTo q (PredicateDraft.mapIntegers? g filter))
  | none => Settles.same _
  | some p => by
    rw [PredicateDraft.mapIntegers?, PredicateDraft.mapIntegers?, PredicateDraft.restrictTo,
      PredicateDraft.restrictTo, PredicateDraft.integers?]
    exact (p.settles_realize h).andThen _

/-- A subquery is settled by its join and then by its filter. -/
theorem SubqueryDraft.settles_realize (h : SettlesEach f g) : (q : SubqueryDraft) →
    Settles q.integers (q.mapIntegers f).realize (q.mapIntegers g).realize
  | ⟨table, aliasName, columns, join, filter⟩ => by
    rw [SubqueryDraft.mapIntegers, SubqueryDraft.mapIntegers, SubqueryDraft.realize,
      SubqueryDraft.realize, SubqueryDraft.integers]
    exact (JoinDraft.settles_attachTo h _ join).bind fun q =>
      PredicateDraft.settles_restrictTo h q filter

end

/-! ### Policies and manifests -/

namespace PolicyDraft

/-- A setter is settled by the integers of its predicate. -/
theorem settles_setting (h : SettlesEach f g) (setter : Predicate → Policy.Setter)
    (p : Option PredicateDraft) :
    Settles (PredicateDraft.integers? p) (setting setter (PredicateDraft.mapIntegers? f p))
      (setting setter (PredicateDraft.mapIntegers? g p)) := by
  cases p with
  | none => exact Settles.same _
  | some p => exact (p.settles_realize h).andThen _

/-- The predicates of a policy are settled in the order they are realized in. -/
theorem settles_predicates (h : SettlesEach f g) (draft : PolicyDraft) :
    Settles draft.integers (draft.mapIntegers f).predicates (draft.mapIntegers g).predicates :=
  (settles_setting h .allow draft.allow).bind fun _ =>
    (settles_setting h .rowsFound draft.usingExpr).bind fun _ =>
      (settles_setting h .rowsWritten draft.checkExpr).andThen _

/-- A policy without a template is settled by its predicates, if it has a name and a command. -/
theorem settles_explicit (h : SettlesEach f g) (draft : PolicyDraft) :
    Settles draft.integers (draft.mapIntegers f).explicit (draft.mapIntegers g).explicit := by
  have hpredicates := settles_predicates h draft
  obtain ⟨table, template, name, command, role, found, written, allow, _, _⟩ := draft
  cases name with
  | none => exact Settles.refusal _ _
  | some name =>
    cases command with
    | none => exact Settles.refusal _ _
    | some command => exact hpredicates.andThen _

/-- Whether a policy overlaps with its template does not depend on its integers. -/
theorem overlapsTemplate_mapIntegers (draft : PolicyDraft) :
    (draft.mapIntegers f).overlapsTemplate = draft.overlapsTemplate := by
  have hsome (p : Option PredicateDraft) : (PredicateDraft.mapIntegers? f p).isSome = p.isSome := by
    cases p <;> rfl
  simp only [overlapsTemplate, mapIntegers, hsome]

/-- A draft that only settles a template holds no integers. -/
theorem settles_base (h : SettlesEach f g) (draft : PolicyDraft) :
    Settles draft.integers (draft.mapIntegers f).base (draft.mapIntegers g).base := by
  have hexplicit := settles_explicit h draft
  have hf := overlapsTemplate_mapIntegers (f := f) draft
  have hg := overlapsTemplate_mapIntegers (f := g) draft
  unfold base
  rw [hf, hg, show (draft.mapIntegers f).template = draft.template from rfl,
    show (draft.mapIntegers g).template = draft.template from rfl]
  -- a template is refused for an overlap, and without one the policy has no integers of its own
  cases draft.template with
  | none => exact hexplicit
  | some template =>
    cases hoverlap : draft.overlapsTemplate with
    | true => exact Settles.refusal _ _
    | false =>
      have hnone : draft.integers = [] := by
        simp only [overlapsTemplate, Bool.or_eq_false_iff, Option.isSome_eq_false_iff,
          Option.isNone_iff_eq_none] at hoverlap
        obtain ⟨⟨⟨-, hfound⟩, hwritten⟩, hallow⟩ := hoverlap
        rw [integers, hallow, hfound, hwritten]
        rfl
      rw [hnone]
      exact Settles.same _

/-- A policy is settled by the integers of its predicates, whichever way it starts. -/
theorem settles_realize (h : SettlesEach f g) (draft : PolicyDraft) :
    Settles draft.integers (draft.mapIntegers f).realize (draft.mapIntegers g).realize :=
  (settles_base h draft).andThen _

end PolicyDraft

namespace Manifest

/-- Groups are settled in a row, whatever keys have been met before. -/
theorem settles_realizeGroups (h : SettlesEach f g) (seen : List (String × String))
    (drafts : List GroupDraft) :
    Settles (drafts.flatMap GroupDraft.integers)
      (realizeGroups seen (drafts.map (·.mapIntegers f)))
      (realizeGroups seen (drafts.map (·.mapIntegers g))) := by
  induction drafts generalizing seen with
  | nil => exact Settles.same _
  | cons draft drafts ih =>
    obtain ⟨name, description, policies⟩ := draft
    rw [List.map_cons, List.map_cons, realizeGroups, realizeGroups, List.flatMap_cons]
    -- an empty group is refused before any of its policies
    cases policies with
    | nil => exact Settles.refusal _ _
    | cons policy policies =>
      have hpolicies := Settles.mapM (PolicyDraft.settles_realize h) (policy :: policies)
      exact hpolicies.bind fun policies => (Settles.same (register seen policies)).bind fun seen =>
        (ih seen).andThen _

/-- **Integers of a manifest.** A manifest either is refused for one of the integers in it,
    or is realized as if the integers that fit 64 bits only without a sign were others;
    and then it succeeds only if there are none of them. -/
theorem settles_realize (h : SettlesEach f g) (m : Manifest) :
    Settles m.integers (m.mapIntegers f).realize (m.mapIntegers g).realize := by
  obtain ⟨groups⟩ := m
  cases groups with
  | nil => exact Settles.same _
  | cons group groups => exact settles_realizeGroups h [] (group :: groups)

end Manifest

end

end RowPolicy
