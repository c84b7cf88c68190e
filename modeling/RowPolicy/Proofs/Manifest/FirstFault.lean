import RowPolicy.Proofs.Manifest.Faults

namespace RowPolicy

/-!
# The first fault is reported

Realizing a draft stops at the first of its faults, and if there is none the predicate refers
to what the draft refers to.

* `Reports` — a computation that stops at the first of some faults;
* `Reports.bind` — one computation after another has the faults of both, in order;
* `SubqueryDraft.Outlines` — the scope of a subquery is that of its draft;
* `PredicateDraft.reports_realize` — realizing, by recursion on all sorts of drafts at once;
* `PredicateDraft.realize_reports_first` — drafts are realized if all their parts are sound.
-/

/-! ### Computations that stop at the first fault -/

section

variable {α β : Type}

/-- A computation is refused for the first of some faults; if there are none, it has a result
    with a property. -/
def Reports (faults : List Refusal) (P : α → Prop) (x : Except Refusal α) : Prop :=
  match faults with
  | [] => ∃ a, x = .ok a ∧ P a
  | r :: _ => x = .error r

namespace Reports

variable {faults more : List Refusal} {P : α → Prop} {Q : β → Prop} {x : Except Refusal α}

/-- A result with the property reports no fault. -/
theorem result {a : α} (h : P a) : Reports [] P (.ok a) := ⟨a, rfl, h⟩

/-- The faults of two computations in a row are those of the first and then those of the second,
    which is run only if the first has none. -/
theorem bind (h : Reports faults P x) {f : α → Except Refusal β}
    (hf : ∀ a, P a → Reports more Q (f a)) : Reports (faults ++ more) Q (x >>= f) := by
  cases faults with
  | nil =>
    obtain ⟨a, rfl, ha⟩ := h
    exact hf a ha
  | cons r rest =>
    have hx : x = .error r := h
    rw [hx]
    rfl

/-- What follows cannot be refused. -/
theorem andReturn (h : Reports faults P x) {f : α → β} (hf : ∀ a, P a → Q (f a)) :
    Reports faults Q (x >>= fun a => pure (f a)) := by
  rw [← List.append_nil faults]
  exact h.bind fun a ha => result (hf a ha)

/-- The refusal is the first of the faults, and there is no other. -/
theorem eq_error_iff (h : Reports faults P x) (r : Refusal) :
    x = .error r ↔ faults.head? = some r := by
  cases faults with
  | nil =>
    obtain ⟨a, rfl, -⟩ := h
    simp
  | cons first rest =>
    have hx : x = .error first := h
    simp [hx]

/-- There is a result exactly if there is no fault. -/
theorem exists_ok_iff (h : Reports faults P x) : (∃ a, x = .ok a) ↔ ∀ r, r ∉ faults := by
  cases faults with
  | nil =>
    obtain ⟨a, rfl, -⟩ := h
    simp
  | cons first rest =>
    have hx : x = .error first := h
    simp only [hx, reduceCtorEq, exists_false, false_iff, not_forall, not_not]
    exact ⟨first, List.mem_cons_self⟩

/-- Every result has the property. -/
theorem of_ok (h : Reports faults P x) {a : α} (hx : x = .ok a) : P a := by
  -- with a fault there is no result, and without one it is the result promised
  cases faults with
  | nil =>
    obtain ⟨b, hb, hP⟩ := h
    rw [hx] at hb
    cases hb
    exact hP
  | cons first rest =>
    have hfirst : x = .error first := h
    rw [hx] at hfirst
    cases hfirst

end Reports

end

/-! ### Operands -/

/-- Integers in a row are at fault one after another. -/
theorem integerFaults_append (ns ms : List Int) :
    integerFaults (ns ++ ms) = integerFaults ns ++ integerFaults ms := by
  rw [integerFaults, List.filter_append, List.map_append, integerFaults, integerFaults]

namespace OperandDraft

/-- An integer is refused for its size alone, and refers to nothing. -/
theorem reports_realizeInteger (n : Int) :
    Reports (integerFaults [n]) (fun v => v.references = []) (realizeInteger n) := by
  unfold realizeInteger
  -- the two readings of the range are one
  by_cases h : IsInt64 n
  · have hrange : Int64.minValue.toInt ≤ n ∧ n ≤ Int64.maxValue.toInt := h
    have hfaults : integerFaults [n] = [] := by simp [integerFaults, h]
    rw [hfaults, if_pos hrange]
    exact .result rfl
  · have hrange : ¬ (Int64.minValue.toInt ≤ n ∧ n ≤ Int64.maxValue.toInt) := h
    have hfaults : integerFaults [n] = [.integerRange n] := by simp [integerFaults, h]
    rw [hfaults, if_neg hrange]
    rfl

mutual

/-- Operands refer to nothing; context values are no references. -/
theorem reports_realize : (v : OperandDraft) →
    Reports (integerFaults v.integers) (fun operand => operand.references = []) v.realize
  | .integer n => reports_realizeInteger n
  | .array items => by
    rw [realize, integers]
    exact (reports_realizes items).andReturn fun operands h => h
  | .null | .bool _ | .float _ | .text _ | .instant _ | .context _ | .raw _ => .result rfl

theorem reports_realizes : (vs : List OperandDraft) →
    Reports (integerFaults (integersOf vs)) (fun operands => Operand.referencesOf operands = [])
      (realizes vs)
  | [] => .result rfl
  | v :: vs => by
    rw [realizes, integersOf, integerFaults_append]
    refine (reports_realize v).bind fun operand hoperand => ?_
    refine (reports_realizes vs).andReturn fun operands hoperands => ?_
    rw [Operand.referencesOf, hoperand, hoperands, List.append_nil]

end

end OperandDraft

/-! ### Clauses of a subquery -/

namespace SubqueryDraft

/-- A subquery has the scope that its draft describes. -/
structure Outlines (d : SubqueryDraft) (q : Subquery) : Prop where
  scopeName_eq : q.scopeName = d.scopeName
  join_eq : q.join.map Join.scopeName = d.join.map JoinDraft.scopeName

section

variable {d : SubqueryDraft} {q : Subquery}

/-- A subquery and its draft both have a join, under one name, or neither has one. -/
theorem Outlines.join_cases (h : d.Outlines q) :
    (q.join = none ∧ d.join = none) ∨
      ∃ joined j, q.join = some joined ∧ d.join = some j ∧ joined.scopeName = j.scopeName := by
  have hjoin := h.join_eq
  cases hq : q.join with
  | none =>
    rw [hq, Option.map_none, eq_comm, Option.map_eq_none_iff] at hjoin
    exact .inl ⟨rfl, hjoin⟩
  | some joined =>
    rw [hq, Option.map_some, eq_comm, Option.map_eq_some_iff] at hjoin
    obtain ⟨j, hd, hname⟩ := hjoin
    exact .inr ⟨joined, j, rfl, hd, hname.symm⟩

/-- The tables a subquery offers are the ones its draft announces. -/
theorem Outlines.available_eq (h : d.Outlines q) : q.available = d.available := by
  unfold Subquery.available available
  rw [h.scopeName_eq]
  rcases h.join_cases with ⟨hq, hd⟩ | ⟨joined, j, hq, hd, hname⟩
  · rw [hq, hd]
  · rw [hq, hd]
    exact congrArg (addTable [d.scopeName]) hname

/-- What a subquery advises about missing tables is what its draft announces. -/
theorem Outlines.hint_eq (h : d.Outlines q) : q.hint = d.hint := by
  funext missing
  unfold Subquery.hint hint
  rcases h.join_cases with ⟨hq, hd⟩ | ⟨joined, j, hq, hd, hname⟩
  · rw [hq, hd]
    rcases missing with _ | ⟨table, _ | ⟨other, rest⟩⟩ <;> rfl
  · rw [hq, hd]
    exact congrArg Hint.alreadyJoins hname

end

end SubqueryDraft

/-- A check of scope is refused for the tables that are missing. -/
theorem reports_scope {P : Subquery → Prop} {q : Subquery} (hq : P q) {clause : Clause}
    {d : PredicateDraft} {p : Predicate} (href : p.references = d.references)
    {allowed : List String} {hint : List String → Hint} {x : Except Fault Subquery}
    (hx : x = match p.missing allowed with
      | [] => .ok q
      | missing => .error (.missingTables clause missing allowed (hint missing))) :
    Reports (scopeFaults clause d allowed hint) P (x.mapError .fault) := by
  rw [hx, scopeFaults, PredicateDraft.missing_eq_of_references href]
  -- the missing tables of the predicate are those of its draft, as both refer to the same
  cases hmissing : d.missing allowed with
  | nil =>
    rw [if_pos rfl]
    exact .result hq
  | cons table tables =>
    rw [if_neg (List.cons_ne_nil table tables)]
    rfl

namespace SubqueryDraft

/-- The subquery of a draft before its clauses. -/
def start (d : SubqueryDraft) : Subquery := Subquery.selecting d.table d.aliasName d.columns

/-- The start of a draft's subquery, field by field, whether or not it selects columns. -/
theorem start_eq (d : SubqueryDraft) :
    d.start = { table := d.table, aliasName := d.aliasName, columns := d.columns, join := none,
                filter := none } := by
  unfold start Subquery.selecting
  by_cases hall : d.columns.isEmpty = true
  · rw [if_pos hall, List.isEmpty_iff.mp hall]
    rfl
  · rw [if_neg hall]
    rfl

/-- It has no join yet. -/
theorem start_join (d : SubqueryDraft) : d.start.join = none := by
  rw [start_eq]

/-- It has the name in scope that the draft announces. -/
theorem start_scopeName (d : SubqueryDraft) : d.start.scopeName = d.scopeName := by
  rw [start_eq]
  rfl

/-- Its own table is the only one it offers. -/
theorem start_available (d : SubqueryDraft) : d.start.available = [d.scopeName] := by
  rw [Subquery.available, start_join, start_scopeName]

/-- A join is refused for the tables its condition misses, and else completes the outline. -/
theorem reports_attach {d : SubqueryDraft} {j : JoinDraft} (hjoin : d.join = some j)
    {on : Predicate} (hon : on.references = j.on.references) :
    Reports d.onFaults d.Outlines
      ((d.start.attach { kind := j.kind, table := j.table, aliasName := j.aliasName, on }).mapError
        .fault) := by
  rw [onFaults, hjoin]
  let attached : Subquery := { d.start with join := some ⟨j.kind, j.table, j.aliasName, on⟩ }
  have houtlines : d.Outlines attached := ⟨start_scopeName d, by rw [hjoin]; rfl⟩
  refine reports_scope houtlines hon ?_
  rw [Subquery.attach, start_join, start_available]
  rfl

/-- A filter is refused for the tables it misses, against the scope with the join in it. -/
theorem reports_restrict {d : SubqueryDraft} {p : PredicateDraft} (hfilter : d.filter = some p)
    {q : Subquery} (hq : d.Outlines q) {filter : Predicate}
    (href : filter.references = p.references) :
    Reports d.filterFaults (fun _ => True) ((q.restrict filter).mapError .fault) := by
  rw [filterFaults, hfilter, ← hq.available_eq, ← hq.hint_eq]
  exact reports_scope (q := q.addFilter filter) trivial href rfl

end SubqueryDraft

/-! ### Predicates and subqueries -/

/-- A group is refused for having no members, and else refers to what they refer to. -/
theorem Connective.reports_realizeGroup (op : Connective) {drafts : List PredicateDraft}
    {members : List Predicate} (hlength : members.length = drafts.length)
    (href : Predicate.referencesOf members = PredicateDraft.referencesOf drafts) :
    Reports (memberFaults op drafts)
      (fun p => p.references = PredicateDraft.referencesOf drafts) (op.realizeGroup members) := by
  unfold realizeGroup
  -- only the empty group is refused, and members that are realized are as many as the drafts
  cases drafts with
  | nil =>
    rw [List.eq_nil_of_length_eq_zero hlength]
    rfl
  | cons first rest =>
    have hfaults : memberFaults op (first :: rest) = [] := if_neg (List.cons_ne_nil first rest)
    rw [hfaults, ← href]
    cases hp : Predicate.fold? op members with
    | none =>
      cases members with
      | nil => cases hlength
      | cons p ps => cases hp
    | some p => exact .result (Predicate.references_fold hp)

mutual

/-- A draft is refused for the first of its faults; if there are none, its predicate has the
    references of the draft. -/
theorem PredicateDraft.reports_realize : (d : PredicateDraft) →
    Reports d.faults (fun p => p.references = d.references) d.realize
  | .compare column op operand => by
    rw [PredicateDraft.realize, PredicateDraft.faults]
    refine operand.reports_realize.andReturn fun v hv => ?_
    rw [Predicate.references, hv, PredicateDraft.references]
  | .pattern .. | .null .. | .isOwner _ | .isPublic _ | .belongsToTenant .. | .isMemberOf ..
  | .userBelongsTo .. | .hasRole .. | .alwaysTrue => .result rfl
  | .releasedBefore column date => by
    refine .result ?_
    cases date <;> rfl
  | .member column op (some values) none => by
    rw [PredicateDraft.realize, PredicateDraft.faults, SubqueryDraft.faults?, List.append_nil]
    refine (OperandDraft.reports_realizes values).andReturn fun vs hvs => ?_
    rw [Predicate.references, Source.references, hvs, PredicateDraft.references]
  | .member column op none (some subquery) => by
    rw [PredicateDraft.realize, PredicateDraft.faults]
    exact subquery.reports_realize.andReturn fun q _ => rfl
  -- neither source or both: nothing else is looked at
  | .member column op none none | .member column op (some _) (some _) => rfl
  | .call function args => by
    rw [PredicateDraft.realize, PredicateDraft.faults]
    exact (ArgumentDraft.reports_realizes args).andReturn fun as has => has
  | .group op members => by
    rw [PredicateDraft.realize, PredicateDraft.faults]
    exact (PredicateDraft.reports_realizes members).bind fun ps hps =>
      op.reports_realizeGroup hps.1 hps.2

/-- Drafts in a row are refused for the first of their faults, and their predicates are as many and
    refer to the same. -/
theorem PredicateDraft.reports_realizes : (ds : List PredicateDraft) →
    Reports (PredicateDraft.faultsOf ds) (fun ps => ps.length = ds.length ∧
      Predicate.referencesOf ps = PredicateDraft.referencesOf ds) (PredicateDraft.realizes ds)
  | [] => .result ⟨rfl, rfl⟩
  | d :: ds => by
    rw [PredicateDraft.realizes, PredicateDraft.faultsOf]
    refine d.reports_realize.bind fun p hp => ?_
    refine (PredicateDraft.reports_realizes ds).andReturn fun ps hps => ⟨?_, ?_⟩
    · rw [List.length_cons, List.length_cons, hps.1]
    · rw [Predicate.referencesOf, PredicateDraft.referencesOf, hp, hps.2]

/-- An argument has the faults of its predicate, and a column has none. -/
theorem ArgumentDraft.reports_realize : (a : ArgumentDraft) →
    Reports a.faults (fun argument => argument.references = a.references) a.realize
  | .column _ => .result rfl
  | .predicate p => by
    rw [ArgumentDraft.realize, ArgumentDraft.faults]
    exact p.reports_realize.andReturn fun predicate h => h

theorem ArgumentDraft.reports_realizes : (as : List ArgumentDraft) →
    Reports (ArgumentDraft.faultsOf as)
      (fun arguments => Argument.referencesOf arguments = ArgumentDraft.referencesOf as)
      (ArgumentDraft.realizes as)
  | [] => .result rfl
  | a :: as => by
    rw [ArgumentDraft.realizes, ArgumentDraft.faultsOf]
    refine a.reports_realize.bind fun argument hargument => ?_
    refine (ArgumentDraft.reports_realizes as).andReturn fun arguments harguments => ?_
    rw [Argument.referencesOf, ArgumentDraft.referencesOf, hargument, harguments]

/-- The condition of a join comes before its scope. -/
theorem JoinDraft.reports_attachTo (d : SubqueryDraft) : (join : Option JoinDraft) →
    d.join = join →
    Reports (JoinDraft.faults? join ++ d.onFaults) d.Outlines (JoinDraft.attachTo d.start join)
  | none, hjoin => by
    rw [JoinDraft.attachTo, JoinDraft.faults?, SubqueryDraft.onFaults, hjoin]
    exact .result ⟨d.start_scopeName, by rw [d.start_join, hjoin]; rfl⟩
  | some ⟨kind, table, aliasName, on⟩, hjoin => by
    rw [JoinDraft.attachTo, JoinDraft.faults?]
    exact on.reports_realize.bind fun p hp => SubqueryDraft.reports_attach hjoin hp

/-- The predicate of a filter comes before its scope. -/
theorem PredicateDraft.reports_restrictTo {d : SubqueryDraft} {q : Subquery} (hq : d.Outlines q) :
    (filter : Option PredicateDraft) → d.filter = filter →
    Reports (PredicateDraft.faults? filter ++ d.filterFaults) (fun _ => True)
      (PredicateDraft.restrictTo q filter)
  | none, hfilter => by
    rw [PredicateDraft.restrictTo, PredicateDraft.faults?, SubqueryDraft.filterFaults, hfilter]
    exact .result trivial
  | some p, hfilter => by
    rw [PredicateDraft.restrictTo, PredicateDraft.faults?]
    exact p.reports_realize.bind fun filter hp => SubqueryDraft.reports_restrict hfilter hq hp

/-- The join of a subquery comes before its filter, whose scope it widens. -/
theorem SubqueryDraft.reports_realize : (d : SubqueryDraft) →
    Reports d.faults (fun _ => True) d.realize
  | ⟨table, aliasName, columns, join, filter⟩ => by
    rw [SubqueryDraft.realize, SubqueryDraft.faults]
    exact (JoinDraft.reports_attachTo ⟨table, aliasName, columns, join, filter⟩ join rfl).bind
      fun q hq => PredicateDraft.reports_restrictTo hq filter rfl

end

/-! ### Every draft -/

namespace PredicateDraft

/-- **Only faulty drafts are refused.** A draft is realized if and only if each draft in it is
    sound, and its predicate then refers to the tables that the draft refers to.  Otherwise it
    is refused for the first of its faults, from left to right, with what stands in a group or
    a clause before the group or the scope of the clause, and a join before the filter.  Its
    faults are those of its parts: a table out of scope is one of the subquery, all others are
    of the manifest. -/
theorem realize_reports_first (d : PredicateDraft) :
    ((∃ p, d.realize = .ok p) ↔ ∀ part : PredicateDraft, part.PartOf d → part.Sound) ∧
    (∀ p, d.realize = .ok p → p.tables = d.tables) ∧
    (∀ r, d.realize = .error r ↔ d.faults.head? = some r) ∧
    ∀ r, r ∈ d.faults ↔ ∃ part : PredicateDraft, part.PartOf d ∧ part.Fails r := by
  have hreports := d.reports_realize
  have hsound : (∀ part : PredicateDraft, part.PartOf d → part.Sound) ↔ ∀ r, r ∉ d.faults := by
    simp only [sound_iff, mem_faults, not_exists, not_and]
    exact ⟨fun h r part hpart => h part hpart r, fun h part hpart r => h r part hpart⟩
  refine ⟨?_, fun p hp => ?_, hreports.eq_error_iff, fun r => mem_faults⟩
  · rw [hsound]
    exact hreports.exists_ok_iff
  · exact tables_eq_of_references (hreports.of_ok hp)

/-- A join on a third table, a group without members in the filter behind it, and a membership
    with two sources behind both: each is at fault, and the join is reported. -/
theorem realize_reports_first_join :
    let teams : SubqueryDraft :=
      { table := "teams", aliasName := some "t", columns := ["t.id"],
        join := some
          { kind := .inner, table := "members", aliasName := none,
            on := .call "same" [.column "members.team_id", .column "teams.id"] },
        filter := some (.group .and []) }
    let draft : PredicateDraft :=
      .group .or [.isPublic "p", .member "team_id" .inside none (some teams),
        .member "id" .contains (some [.array [.integer 9223372036854775808]]) (some teams)]
    let scope : Refusal := .fault
      (.missingTables .joinOn ["teams"] ["t", "members"] (.onlyJoined ["t"] "members"))
    draft.realize = .error scope ∧
      draft.faults = [scope, .noMembers .and, .sources "id", .integerRange 9223372036854775808,
        scope, .noMembers .and] ∧
      ∃ part : PredicateDraft, part.PartOf draft ∧ part.Fails scope := by
  intro teams draft scope
  obtain ⟨-, -, herror, hfaults⟩ := realize_reports_first draft
  -- six faults in the order of the text, the scope of the first subquery in front
  have hall : draft.faults = [scope, .noMembers .and, .sources "id",
      .integerRange 9223372036854775808, scope, .noMembers .and] := by decide +kernel
  refine ⟨(herror scope).mpr ?_, hall, (hfaults scope).mp ?_⟩
  · rw [hall]
    rfl
  · rw [hall]
    exact List.mem_cons_self

end PredicateDraft

end RowPolicy
