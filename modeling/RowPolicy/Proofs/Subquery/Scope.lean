import RowPolicy.Proofs.Predicate.References
import RowPolicy.Subquery

namespace RowPolicy

/-!
# Scope along a run of steps

A subquery is built by steps, each of which may be refused and then changes nothing.
However the steps are mixed, no table that a predicate of the subquery refers to is out of
scope, although a join widens the scope and later filters are combined with earlier ones:

* `Subquery.IsSecondJoin`, `Subquery.Step.outside` — the two reasons to refuse a step;
* `Subquery.apply_eq_ok`, `Subquery.apply_eq_error` — what an accepted step does, and which
  fault a refused one reports;
* `Subquery.run`, `Subquery.accepted` — a run of steps and those that it accepts;
* `Subquery.Scoped.run` — scope is kept along every run;
* `Subquery.run_scoped` — the state behind a run, and which step it refuses next.
-/

namespace Subquery

/-! ### Steps -/

namespace Step

/-- The predicate that a step adds to a subquery, if it adds one. -/
def predicate? : Step → Option Predicate
  | select _ => none
  | attach j => some j.on
  | restrict p => some p

/-- The join that a step adds to a subquery, if it adds one. -/
def join? : Step → Option Join
  | attach j => some j
  | _ => none

/-- The clause that the predicate of a step stands in. -/
def clause : Step → Clause
  | attach _ => .joinOn
  | _ => .filter

/-- The references in the predicate of a step. -/
def references (s : Step) : List String := (s.predicate?.map Predicate.references).getD []

/-- The names that the predicate of a step may refer to: the tables in scope, and for a
    join the joined table as well. -/
def allowed (q : Subquery) : Step → List String
  | attach j => q.available ++ [j.scopeName]
  | _ => q.available

/-- The tables that a step refers to but may not, each at its first occurrence. -/
def outside (q : Subquery) (s : Step) : List String :=
  (qualifiers s.references).eraseDups.filter fun table => table ∉ s.allowed q

/-- What is out of scope are the tables that the predicate of the step misses. -/
theorem outside_eq_missing {s : Step} {p : Predicate} (q : Subquery) (h : s.predicate? = some p) :
    s.outside q = p.missing (s.allowed q) := by
  rw [outside, references, h, Option.map_some, Option.getD_some, ← Predicate.tables_eq]
  rfl

/-- A step is in scope exactly if each of its qualifiers is allowed. -/
theorem outside_eq_nil {q : Subquery} {s : Step} :
    s.outside q = [] ↔ ∀ table ∈ qualifiers s.references, table ∈ s.allowed q := by
  simp [outside, List.filter_eq_nil_iff]

end Step

/-- A step that adds a join to a subquery that has one. -/
def IsSecondJoin (q : Subquery) (s : Step) : Prop := s.join?.isSome ∧ q.join.isSome

/-- A join is a second one exactly if there is one already. -/
theorem isSecondJoin_attach {q : Subquery} {j : Join} :
    q.IsSecondJoin (.attach j) ↔ q.join.isSome = true :=
  and_iff_right rfl

/-- Other steps are no joins at all. -/
theorem not_isSecondJoin {q : Subquery} {s : Step} (h : s.join? = none) : ¬ q.IsSecondJoin s := by
  rintro ⟨hjoin, -⟩
  rw [h] at hjoin
  cases hjoin

/-- What a step does to a subquery unless it is refused. -/
def effect (q : Subquery) : Step → Subquery
  | .select columns => q.select columns
  | .attach j => { q with join := some j }
  | .restrict p => q.addFilter p

/-- The advice that comes with the tables out of scope. -/
def advice (q : Subquery) (s : Step) : Hint :=
  match s.join? with
  | some j => .onlyJoined q.available j.scopeName
  | none => q.hint (s.outside q)

/-- A second join is refused, whatever it says. -/
theorem attach_of_isSome {q : Subquery} {existing : Join} (h : q.join = some existing) (j : Join) :
    q.attach j = .error (.duplicateJoin q.table existing.table) := by
  rw [attach, h]

/-- A first join is attached if it is in scope. -/
theorem attach_of_none {q : Subquery} (h : q.join = none) (j : Join) :
    q.attach j = match Step.outside q (.attach j) with
      | [] => .ok (q.effect (.attach j))
      | missing => .error (.missingTables .joinOn missing (q.available ++ [j.scopeName])
          (.onlyJoined q.available j.scopeName)) := by
  rw [Step.outside_eq_missing q (p := j.on) rfl, attach, h]
  rfl

/-- A filter is set if it is in scope. -/
theorem restrict_eq (q : Subquery) (p : Predicate) :
    q.restrict p = match Step.outside q (.restrict p) with
      | [] => .ok (q.effect (.restrict p))
      | missing => .error (.missingTables .filter missing q.available (q.hint missing)) := by
  rw [Step.outside_eq_missing q (p := p) rfl]
  rfl

/-- A step is accepted unless it is a second join or refers to a table outside, and then
    does what it says. -/
theorem apply_eq_ok {q next : Subquery} {s : Step} :
    q.apply s = .ok next ↔ ¬ q.IsSecondJoin s ∧ s.outside q = [] ∧ next = q.effect s := by
  cases s with
  -- selecting columns is never refused
  | select columns =>
    have hinside : Step.outside q (.select columns) = [] := rfl
    rw [apply, Except.ok.injEq, and_iff_right (not_isSecondJoin rfl), and_iff_right hinside]
    exact eq_comm
  | attach j =>
    rw [apply, isSecondJoin_attach]
    -- a second join is refused before its scope is looked at
    cases hjoin : q.join with
    | some existing => simp [attach_of_isSome hjoin]
    | none =>
      rw [attach_of_none hjoin]
      cases Step.outside q (.attach j) <;> simp [eq_comm (a := next)]
  | restrict p =>
    rw [apply, restrict_eq, and_iff_right (not_isSecondJoin rfl)]
    cases Step.outside q (.restrict p) <;> simp [eq_comm (a := next)]

/-- A second join is refused as such, whatever it refers to; any other step is refused for
    the tables outside. -/
theorem apply_eq_error {q : Subquery} {s : Step} {f : Fault} :
    q.apply s = .error f ↔
      (s.join?.isSome ∧ ∃ existing, q.join = some existing ∧
        f = .duplicateJoin q.table existing.table) ∨
      (¬ q.IsSecondJoin s ∧ s.outside q ≠ [] ∧
        f = .missingTables s.clause (s.outside q) (s.allowed q) (q.advice s)) := by
  cases s with
  | select columns =>
    have hinside : Step.outside q (.select columns) = [] := rfl
    simp [apply, hinside, Step.join?]
  | attach j =>
    rw [apply, isSecondJoin_attach]
    cases hjoin : q.join with
    | some existing => simp [attach_of_isSome hjoin, Step.join?, eq_comm (a := f)]
    | none =>
      rw [attach_of_none hjoin]
      cases Step.outside q (.attach j) <;>
        simp [Step.clause, Step.allowed, advice, Step.join?, eq_comm (a := f)]
  | restrict p =>
    rw [apply, restrict_eq, and_iff_right (not_isSecondJoin rfl)]
    cases hout : Step.outside q (.restrict p) <;>
      simp [Step.join?, Step.clause, Step.allowed, advice, hout, eq_comm (a := f)]

/-! ### Tables in scope -/

/-- The tables in scope are the own one and the joined one. -/
theorem mem_available {q : Subquery} {table : String} :
    table ∈ q.available ↔ table = q.scopeName ∨ ∃ j, q.join = some j ∧ table = j.scopeName := by
  unfold available
  cases q.join with
  | none => simp
  | some j =>
    unfold addTable
    by_cases hmem : j.scopeName ∈ [q.scopeName]
    · rw [List.mem_singleton] at hmem
      simp [hmem]
    · simp [hmem]

/-- The names that a step may refer to are in scope behind it. -/
theorem allowed_subset_effect (q : Subquery) (s : Step) (h : ¬ q.IsSecondJoin s) :
    s.allowed q ⊆ (q.effect s).available := by
  intro table hmem
  cases s with
  | select columns => exact hmem
  | restrict p => exact hmem
  | attach j =>
    rw [Step.allowed, List.mem_append, List.mem_singleton, mem_available] at hmem
    rw [mem_available]
    have hnone : q.join = none := by
      simpa [isSecondJoin_attach] using h
    -- a join may refer to the table it joins, which is in scope from then on
    rcases hmem with (hscope | ⟨_, hsome, _⟩) | hjoined
    · exact .inl hscope
    · rw [hnone] at hsome
      cases hsome
    · exact .inr ⟨j, rfl, hjoined⟩

/-- What is in scope may be referred to by any step. -/
theorem available_subset_allowed (q : Subquery) (s : Step) : q.available ⊆ s.allowed q := by
  cases s with
  | attach j => exact List.subset_append_left _ _
  | _ => exact List.Subset.refl _

/-- The tables that the predicates of a subquery refer to are in scope. -/
structure Scoped (q : Subquery) : Prop where
  filter_subset : ∀ p, q.filter = some p → p.tables ⊆ q.available
  on_subset : ∀ j, q.join = some j → j.on.tables ⊆ q.available

/-- A table by itself has nothing out of scope. -/
theorem scoped_ofTable (table : String) (aliasName : Option String) :
    (ofTable table aliasName).Scoped :=
  ⟨by simp [ofTable], by simp [ofTable]⟩

/-- A step that is in scope has its tables among those allowed. -/
theorem tables_subset_allowed {q : Subquery} {s : Step} {p : Predicate} (h : s.outside q = [])
    (hp : s.predicate? = some p) : p.tables ⊆ s.allowed q := by
  intro table hmem
  rw [Step.outside_eq_missing q hp, Predicate.missing, List.filter_eq_nil_iff] at h
  simpa using h table hmem

/-- One accepted step keeps the tables of all predicates in scope. -/
theorem Scoped.effect {q : Subquery} (h : q.Scoped) {s : Step} (hfirst : ¬ q.IsSecondJoin s)
    (hinside : s.outside q = []) : (q.effect s).Scoped := by
  -- the scope does not shrink, so only what the step adds needs its check
  have hkeeps : q.available ⊆ (q.effect s).available :=
    List.Subset.trans (available_subset_allowed q s) (allowed_subset_effect q s hfirst)
  have hadds : ∀ p, s.predicate? = some p → p.tables ⊆ (q.effect s).available := fun p hp =>
    List.Subset.trans (tables_subset_allowed hinside hp) (allowed_subset_effect q s hfirst)
  cases s with
  | select columns => exact ⟨h.filter_subset, h.on_subset⟩
  | attach j =>
    refine ⟨fun p hp => List.Subset.trans (h.filter_subset p hp) hkeeps, fun j' hj' => ?_⟩
    cases hj'
    exact hadds j.on rfl
  | restrict p =>
    refine ⟨fun p' hp' => ?_, h.on_subset⟩
    cases hfilter : q.filter with
    | none =>
      rw [Subquery.effect, addFilter, hfilter] at hp'
      cases hp'
      exact hadds p rfl
    | some existing =>
      rw [Subquery.effect, addFilter, hfilter] at hp'
      cases hp'
      intro table hmem
      rcases Predicate.mem_tables_combine.mp hmem with hold | hnew
      · exact hkeeps (h.filter_subset existing hfilter hold)
      · exact hadds p rfl hnew

/-- An accepted step leaves everything in scope. -/
theorem Scoped.apply {q next : Subquery} (h : q.Scoped) {s : Step} (happly : q.apply s = .ok next) :
    next.Scoped := by
  obtain ⟨hfirst, hinside, rfl⟩ := apply_eq_ok.mp happly
  exact h.effect hfirst hinside

/-! ### Runs -/

/-- A subquery behind a step, which changes nothing if it is refused. -/
def advance (q : Subquery) (s : Step) : Subquery :=
  match q.apply s with
  | .ok next => next
  | .error _ => q

/-- A subquery behind a run of steps. -/
def run (q : Subquery) (steps : List Step) : Subquery := steps.foldl advance q

/-- The steps of a run that are accepted. -/
def accepted (q : Subquery) : List Step → List Step
  | [] => []
  | s :: steps =>
    match q.apply s with
    | .ok next => s :: next.accepted steps
    | .error _ => q.accepted steps

/-- Behind an accepted step the run goes on from its effect. -/
theorem run_cons_of_ok {q next : Subquery} {s : Step} (h : q.apply s = .ok next)
    (steps : List Step) :
    q.run (s :: steps) = next.run steps ∧ q.accepted (s :: steps) = s :: next.accepted steps := by
  rw [run, List.foldl_cons, advance, accepted, h]
  exact ⟨rfl, rfl⟩

/-- Behind a refused step the run goes on from where it was. -/
theorem run_cons_of_error {q : Subquery} {s : Step} {f : Fault} (h : q.apply s = .error f)
    (steps : List Step) :
    q.run (s :: steps) = q.run steps ∧ q.accepted (s :: steps) = q.accepted steps := by
  rw [run, List.foldl_cons, advance, accepted, h]
  exact ⟨rfl, rfl⟩

/-- Along every run the tables of all predicates stay in scope. -/
theorem Scoped.run {q : Subquery} (h : q.Scoped) (steps : List Step) : (q.run steps).Scoped := by
  induction steps generalizing q with
  | nil => exact h
  | cons s steps ih =>
    cases happly : q.apply s with
    -- the step keeps the invariant, and the rest keeps it by induction
    | ok next =>
      rw [(run_cons_of_ok happly steps).1]
      exact ih (h.apply happly)
    | error f =>
      rw [(run_cons_of_error happly steps).1]
      exact ih h

/-- The scope of a subquery only grows. -/
theorem available_subset_run (q : Subquery) (steps : List Step) :
    q.available ⊆ (q.run steps).available := by
  induction steps generalizing q with
  | nil => exact List.Subset.refl _
  | cons s steps ih =>
    cases happly : q.apply s with
    | ok next =>
      obtain ⟨hfirst, -, rfl⟩ := apply_eq_ok.mp happly
      rw [(run_cons_of_ok happly steps).1]
      -- a step allows what was in scope, and what it allowed is in scope behind it
      have hstep : q.available ⊆ (q.effect s).available :=
        List.Subset.trans (available_subset_allowed q s) (allowed_subset_effect q s hfirst)
      exact List.Subset.trans hstep (ih _)
    | error f =>
      rw [(run_cons_of_error happly steps).1]
      exact ih q

/-- What the predicates accepted on the way refer to is in scope at the end. -/
theorem tables_subset_run {q : Subquery} {steps : List Step} {s : Step} (h : s ∈ q.accepted steps)
    {p : Predicate} (hp : s.predicate? = some p) : p.tables ⊆ (q.run steps).available := by
  induction steps generalizing q with
  | nil => cases h
  | cons first steps ih =>
    cases happly : q.apply first with
    | ok next =>
      rw [(run_cons_of_ok happly steps).2, List.mem_cons] at h
      rw [(run_cons_of_ok happly steps).1]
      -- this step is the one, or it comes later
      rcases h with rfl | hlater
      · obtain ⟨hfirst, hinside, rfl⟩ := apply_eq_ok.mp happly
        have hstep : p.tables ⊆ (q.effect s).available :=
          List.Subset.trans (tables_subset_allowed hinside hp) (allowed_subset_effect q s hfirst)
        exact List.Subset.trans hstep (available_subset_run _ steps)
      · exact ih hlater
    | error f =>
      rw [(run_cons_of_error happly steps).2] at h
      rw [(run_cons_of_error happly steps).1]
      exact ih h

/-- A first join is the one that is there behind it. -/
theorem join_effect {q : Subquery} {s : Step} (h : ¬ q.IsSecondJoin s) :
    (q.effect s).join.toList = q.join.toList ++ s.join?.toList := by
  cases s with
  | select columns => simp [effect, select, Step.join?]
  | restrict p => simp [effect, addFilter, Step.join?]
  | attach j =>
    have hnone : q.join = none := by
      simpa [isSecondJoin_attach] using h
    simp [effect, Step.join?, hnone]

/-- The joins accepted in a run come behind the join at its start; together they are no
    more than the one join of the subquery. -/
theorem joins_run (q : Subquery) (steps : List Step) :
    q.join.toList ++ (q.accepted steps).filterMap Step.join? = (q.run steps).join.toList := by
  induction steps generalizing q with
  | nil => simp [accepted, run]
  | cons s steps ih =>
    cases happly : q.apply s with
    | ok next =>
      obtain ⟨hfirst, -, rfl⟩ := apply_eq_ok.mp happly
      rw [(run_cons_of_ok happly steps).1, (run_cons_of_ok happly steps).2, ← ih,
        join_effect hfirst, List.append_assoc]
      -- a step other than a join leaves it as it is
      cases hjoin : s.join? with
      | none => simp [hjoin]
      | some j => simp [hjoin]
    | error f =>
      rw [(run_cons_of_error happly steps).1, (run_cons_of_error happly steps).2]
      exact ih q

/-! ### Behind a run -/

/-- **Scope is kept.** Behind every run of steps the subquery has the one join that the run
    accepted, if it accepted any, and its predicates refer to tables in scope only.  The next
    step is refused if and only if it is a second join or refers to a table that it may not
    refer to; the fault is then the join there is, or reports exactly those tables, each once
    and in the order of their first occurrence. -/
theorem run_scoped (table : String) (aliasName : Option String) (steps : List Step) :
    let start := ofTable table aliasName
    let q := start.run steps
    ((start.accepted steps).filterMap Step.join? = q.join.toList ∧ q.join.toList.length ≤ 1) ∧
    q.Scoped ∧
    ∀ s : Step,
      ((∃ f, q.apply s = .error f) ↔
        q.IsSecondJoin s ∨ ∃ t ∈ qualifiers s.references, t ∉ s.allowed q) ∧
      ∀ f, q.apply s = .error f →
        (q.IsSecondJoin s → ∃ existing, q.join = some existing ∧
          f = .duplicateJoin q.table existing.table) ∧
        (¬ q.IsSecondJoin s → f.isScope = true ∧
          f.missing = (qualifiers s.references).eraseDups.filter (fun t => t ∉ s.allowed q) ∧
          f.missing ≠ [] ∧ f.missing.Nodup) := by
  intro start q
  have hjoins : (start.accepted steps).filterMap Step.join? = q.join.toList := joins_run start steps
  have hone : q.join.toList.length ≤ 1 := by
    cases q.join <;> simp
  refine ⟨⟨hjoins, hone⟩, (scoped_ofTable table aliasName).run steps, fun s => ⟨?_, fun f hf => ?_⟩⟩
  · have houtside : s.outside q ≠ [] ↔ ∃ t ∈ qualifiers s.references, t ∉ s.allowed q := by
      simp [ne_eq, Step.outside_eq_nil]
    rw [← houtside]
    constructor
    · rintro ⟨f, hf⟩
      rcases apply_eq_error.mp hf with ⟨hsome, existing, hjoin, -⟩ | ⟨-, hne, -⟩
      · exact .inl ⟨hsome, by simp [hjoin]⟩
      · exact .inr hne
    · intro hrefused
      -- what is not accepted is refused
      cases happly : q.apply s with
      | error f => exact ⟨f, rfl⟩
      | ok next =>
        obtain ⟨hfirst, hinside, -⟩ := apply_eq_ok.mp happly
        rcases hrefused with hsecond | hne
        · exact absurd hsecond hfirst
        · exact absurd hinside hne
  · rcases apply_eq_error.mp hf with ⟨hsome, existing, hjoin, rfl⟩ | ⟨hfirst, hne, rfl⟩
    · have hsecond : q.IsSecondJoin s := ⟨hsome, by simp [hjoin]⟩
      exact ⟨fun _ => ⟨existing, hjoin, rfl⟩, fun hfirst => absurd hsecond hfirst⟩
    · refine ⟨fun hsecond => absurd hsecond hfirst, fun _ => ⟨rfl, rfl, hne, ?_⟩⟩
      cases hp : s.predicate? with
      | none => simp [Fault.missing, Step.outside, Step.references, hp, qualifiers]
      | some p =>
        rw [Fault.missing, Step.outside_eq_missing q hp]
        exact p.tables_nodup.filter _

/-- Teams with their members: a filter on two other tables is refused for both of them, and
    a second join as such. -/
theorem run_scoped_teams :
    let steps : List Step :=
      [.restrict (.compare "m.user_id" .eq .null),
        .attach ⟨.left, "members", some "m", .compare "m.team_id" .eq (.raw "t.id")⟩,
        .restrict (.compare "m.user_id" .eq (.predicate (.null "t.owner" .isNull))),
        .restrict (.null "t.deleted" .isNull)]
    let q := (ofTable "teams" (some "t")).run steps
    let other : Step := .restrict (.group .or [.null "o.id" .isNull, .null "m.id" .isNull,
      .call "f" [.column "u.id", .column "o.name"]])
    let second : Step := .attach ⟨.inner, "orgs", none, .null "x.id" .isNull⟩
    q.Scoped ∧ q.available = ["t", "m"] ∧
      (∃ f, q.apply other = .error f ∧ f.missing = ["o", "u"]) ∧
      q.apply second = .error (.duplicateJoin "teams" "members") := by
  intro steps q other second
  obtain ⟨-, hscoped, hnext⟩ := run_scoped "teams" (some "t") steps
  -- the tables of the filter that are not in scope, in the order they are met
  obtain ⟨f, hf⟩ := (hnext other).1.mpr (.inr ⟨"o", by decide +kernel, by decide +kernel⟩)
  have hmissing := (((hnext other).2 f hf).2 (fun h => by cases h.1)).2.1
  obtain ⟨g, hg⟩ := (hnext second).1.mpr (.inl ⟨rfl, by decide +kernel⟩)
  obtain ⟨existing, hexisting, rfl⟩ := ((hnext second).2 g hg).1 ⟨rfl, by decide +kernel⟩
  refine ⟨hscoped, by decide +kernel, ⟨f, hf, ?_⟩, ?_⟩
  · rw [hmissing]
    decide +kernel
  · have hmembers : existing.table = "members" := by
      cases hexisting
      rfl
    rw [hmembers] at hg
    exact hg

end Subquery

end RowPolicy
