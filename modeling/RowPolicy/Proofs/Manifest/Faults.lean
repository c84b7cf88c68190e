import RowPolicy.Proofs.Manifest.Integers
import RowPolicy.Proofs.Manifest.Parts

namespace RowPolicy

/-!
# Which draft is refused, and for what

A draft has as many faults as there are drafts in it that are not as they should be;
realizing it reports the first one, from left to right and from the inside out, and
succeeds if there is none:

* `PredicateDraft.Sound`, `PredicateDraft.Fails` — what is asked of a draft itself, whatever
  stands in it, and the refusals if it is not so;
* `PredicateDraft.faults` — the refusals of a draft and of all drafts in it, in the order in
  which they are met;
* `Reports` — a computation that stops at the first of some faults;
* `PredicateDraft.reports_realize` — realizing is one;
* `PredicateDraft.realize_reports_first` — so it succeeds on sound drafts alone.
-/

/-! ### Faults of a single draft -/

/-- The refusals of the integers among some that do not fit 64 bits with a sign. -/
def integerFaults (ns : List Int) : List Refusal :=
  (ns.filter fun n => ¬ IsInt64 n).map .integerRange

/-- The refusal of a membership that has no source of values, or two. -/
def sourceFaults (column : String) (values : Option (List OperandDraft))
    (subquery : Option SubqueryDraft) : List Refusal :=
  if values.isSome = subquery.isSome then [.sources column] else []

/-- The refusal of a group without members. -/
def memberFaults (op : Connective) (members : List PredicateDraft) : List Refusal :=
  if members = [] then [.noMembers op] else []

/-- The refusal of a clause that refers to tables it may not refer to. -/
def scopeFaults (clause : Clause) (d : PredicateDraft) (allowed : List String)
    (hint : List String → Hint) : List Refusal :=
  if d.missing allowed = [] then []
  else [.fault (.missingTables clause (d.missing allowed) allowed (hint (d.missing allowed)))]

namespace SubqueryDraft

/-- What to advise when a `WHERE` draft refers to missing tables. -/
def hint (q : SubqueryDraft) (missing : List String) : Hint :=
  match q.join, missing with
  | some j, _ => .alreadyJoins j.scopeName
  | none, [table] => .addJoin table
  | none, tables => .tooMany tables

/-- The refusal of the `ON` draft of a subquery. -/
def onFaults (q : SubqueryDraft) : List Refusal :=
  match q.join with
  | none => []
  | some j =>
    scopeFaults .joinOn j.on (q.allowedOn j) fun _ => .onlyJoined [q.scopeName] j.scopeName

/-- The refusal of the `WHERE` draft of a subquery. -/
def filterFaults (q : SubqueryDraft) : List Refusal :=
  match q.filter with
  | none => []
  | some p => scopeFaults .filter p q.available q.hint

end SubqueryDraft

/-! ### Faults at any depth -/

mutual

/-- The faults of a draft and of all drafts in it.  The source of a membership is looked at
    before its values and its subquery. -/
def PredicateDraft.faults : PredicateDraft → List Refusal
  | .compare _ _ operand => integerFaults operand.integers
  | .member column _ values subquery =>
    sourceFaults column values subquery ++
      (integerFaults (OperandDraft.integersOf? values) ++ SubqueryDraft.faults? subquery)
  | .call _ args => ArgumentDraft.faultsOf args
  | .group op members => PredicateDraft.faultsOf members ++ memberFaults op members
  | _ => []

/-- Those of some drafts, one draft after the other. -/
def PredicateDraft.faultsOf : List PredicateDraft → List Refusal
  | [] => []
  | p :: ps => p.faults ++ PredicateDraft.faultsOf ps

/-- Those of a draft, if there is one. -/
def PredicateDraft.faults? : Option PredicateDraft → List Refusal
  | none => []
  | some p => p.faults

/-- Those of an argument. -/
def ArgumentDraft.faults : ArgumentDraft → List Refusal
  | .column _ => []
  | .predicate p => p.faults

/-- Those of some arguments. -/
def ArgumentDraft.faultsOf : List ArgumentDraft → List Refusal
  | [] => []
  | a :: as => a.faults ++ ArgumentDraft.faultsOf as

/-- Those in the `ON` draft of a join, if there is one. -/
def JoinDraft.faults? : Option JoinDraft → List Refusal
  | none => []
  | some ⟨_, _, _, on⟩ => on.faults

/-- Those of a subquery: the join comes before the filter, and what stands in a clause before
    the scope of the clause. -/
def SubqueryDraft.faults : SubqueryDraft → List Refusal
  | ⟨table, aliasName, columns, join, filter⟩ =>
    (JoinDraft.faults? join ++ SubqueryDraft.onFaults ⟨table, aliasName, columns, join, filter⟩) ++
      (PredicateDraft.faults? filter ++
        SubqueryDraft.filterFaults ⟨table, aliasName, columns, join, filter⟩)

/-- Those of a subquery, if there is one. -/
def SubqueryDraft.faults? : Option SubqueryDraft → List Refusal
  | none => []
  | some q => q.faults

end

/-! ### Which drafts are at fault -/

/-- What is asked of a draft itself, whatever stands in it. -/
def PredicateDraft.Sound : PredicateDraft → Prop
  | .compare _ _ operand => ∀ n ∈ operand.integers, IsInt64 n
  | .member _ _ values subquery =>
    values.isSome ≠ subquery.isSome ∧ (∀ n ∈ OperandDraft.integersOf? values, IsInt64 n) ∧
      ∀ q, subquery = some q → q.InScope
  | .group _ members => members ≠ []
  | _ => True

/-- A refusal for what a subquery itself refers to. -/
def SubqueryDraft.Fails (q : SubqueryDraft) (r : Refusal) : Prop :=
  (∃ j, q.join = some j ∧ ¬ j.on.tables ⊆ q.allowedOn j ∧
    r = .fault (.missingTables .joinOn (j.on.missing (q.allowedOn j)) (q.allowedOn j)
      (.onlyJoined [q.scopeName] j.scopeName))) ∨
  ∃ p, q.filter = some p ∧ ¬ p.tables ⊆ q.available ∧
    r = .fault (.missingTables .filter (p.missing q.available) q.available
      (q.hint (p.missing q.available)))

/-- A refusal for a draft itself, whatever stands in it. -/
def PredicateDraft.Fails : PredicateDraft → Refusal → Prop
  | .compare _ _ operand, r => ∃ n ∈ operand.integers, ¬ IsInt64 n ∧ r = .integerRange n
  | .member column _ values subquery, r =>
    (values.isSome = subquery.isSome ∧ r = .sources column) ∨
      (∃ n ∈ OperandDraft.integersOf? values, ¬ IsInt64 n ∧ r = .integerRange n) ∨
      ∃ q, subquery = some q ∧ q.Fails r
  | .group op members, r => members = [] ∧ r = .noMembers op
  | _, _ => False

/-- The faults of some integers are the refusals of those beyond 64 bits. -/
theorem mem_integerFaults {ns : List Int} {r : Refusal} :
    r ∈ integerFaults ns ↔ ∃ n ∈ ns, ¬ IsInt64 n ∧ r = .integerRange n := by
  simp [integerFaults, and_assoc, eq_comm (a := r)]

/-- A membership is at fault for its sources exactly if it has both, or neither. -/
theorem mem_sourceFaults {column : String} {values : Option (List OperandDraft)}
    {subquery : Option SubqueryDraft} {r : Refusal} :
    r ∈ sourceFaults column values subquery ↔
      values.isSome = subquery.isSome ∧ r = .sources column := by
  unfold sourceFaults
  by_cases h : values.isSome = subquery.isSome <;> simp [h]

/-- A group is at fault for its members exactly if it has none. -/
theorem mem_memberFaults {op : Connective} {members : List PredicateDraft} {r : Refusal} :
    r ∈ memberFaults op members ↔ members = [] ∧ r = .noMembers op := by
  unfold memberFaults
  by_cases h : members = [] <;> simp [h]

/-- A clause is at fault for its scope exactly if it refers to a table out of it, and the fault
    lists all such tables. -/
theorem mem_scopeFaults {clause : Clause} {d : PredicateDraft} {allowed : List String}
    {hint : List String → Hint} {r : Refusal} :
    r ∈ scopeFaults clause d allowed hint ↔ ¬ d.tables ⊆ allowed ∧
      r = .fault (.missingTables clause (d.missing allowed) allowed (hint (d.missing allowed))) := by
  rw [← PredicateDraft.missing_eq_nil, scopeFaults]
  by_cases h : d.missing allowed = [] <;> simp [h]

namespace SubqueryDraft

/-- What a subquery itself is refused for is a fault of its join or of its filter. -/
theorem fails_iff {q : SubqueryDraft} {r : Refusal} :
    q.Fails r ↔ r ∈ q.onFaults ∨ r ∈ q.filterFaults := by
  refine or_congr ?on ?filter
  case on =>
    unfold onFaults
    cases q.join with
    | none => simp
    | some j => simp [mem_scopeFaults]
  case filter =>
    unfold filterFaults
    cases q.filter with
    | none => simp
    | some p => simp [mem_scopeFaults]

/-- Only a subquery out of scope is refused for something of its own. -/
theorem inScope_iff {q : SubqueryDraft} : q.InScope ↔ ∀ r, ¬ q.Fails r := by
  constructor
  -- in scope, neither clause can be the one that fails
  · rintro ⟨hon, hfilter⟩ r (⟨j, hj, hout, -⟩ | ⟨p, hp, hout, -⟩)
    · exact hout (hon j hj)
    · exact hout (hfilter p hp)
  -- a clause out of scope would be refused for the tables it misses
  · intro h
    constructor
    · intro j hj
      by_contra hout
      exact h _ (.inl ⟨j, hj, hout, rfl⟩)
    · intro p hp
      by_contra hout
      exact h _ (.inr ⟨p, hp, hout, rfl⟩)

/-- The faults of a subquery are its own and those of its two clauses. -/
theorem mem_faults {q : SubqueryDraft} {r : Refusal} :
    r ∈ q.faults ↔ q.Fails r ∨ ∃ c ∈ q.conditions, r ∈ c.faults := by
  obtain ⟨table, aliasName, columns, join, filter⟩ := q
  rw [SubqueryDraft.faults, fails_iff, conditions]
  simp only [List.mem_append]
  -- the faults of a join are those of its condition, and those of a filter its own
  have hjoin : r ∈ JoinDraft.faults? join ↔
      ∃ c ∈ (join.map JoinDraft.on).toList, r ∈ c.faults := by
    obtain _ | ⟨kind, joined, joinedAs, on⟩ := join
    · simp [JoinDraft.faults?]
    · simp [JoinDraft.faults?]
  have hfilter : r ∈ PredicateDraft.faults? filter ↔ ∃ c ∈ filter.toList, r ∈ c.faults := by
    cases filter <;> simp [PredicateDraft.faults?]
  rw [hjoin, hfilter, or_or_or_comm, or_comm]
  simp only [or_and_right, exists_or]

end SubqueryDraft

namespace PredicateDraft

/-- A draft is sound if there is nothing to refuse it for. -/
theorem sound_iff {d : PredicateDraft} : d.Sound ↔ ∀ r, ¬ d.Fails r := by
  -- only integers beyond 64 bits are refused, wherever the draft has them
  have hintegers (ns : List Int) :
      (∀ n ∈ ns, IsInt64 n) ↔ ∀ r, ¬ ∃ n ∈ ns, ¬ IsInt64 n ∧ r = Refusal.integerRange n := by
    constructor
    · rintro h r ⟨n, hn, hlarge, -⟩
      exact hlarge (h n hn)
    · intro h n hn
      by_contra hlarge
      exact h _ ⟨n, hn, hlarge, rfl⟩
  cases d with
  | compare column op operand => exact hintegers operand.integers
  | member column op values subquery =>
    -- the subquery of a membership, if it has one, is sound by itself
    have hsubquery : (∀ q, subquery = some q → q.InScope) ↔
        ∀ r, ¬ ∃ q, subquery = some q ∧ q.Fails r := by
      constructor
      · rintro h r ⟨q, hq, hfails⟩
        exact SubqueryDraft.inScope_iff.mp (h q hq) r hfails
      · intro h q hq
        exact SubqueryDraft.inScope_iff.mpr fun r hfails => h r ⟨q, hq, hfails⟩
    rw [Sound, hintegers, hsubquery]
    simp only [Fails, not_or, forall_and]
    simp
  | group op members => simp [Sound, Fails]
  | _ => simp [Sound, Fails]

/-- The faults of drafts in a row are those of each, one after another. -/
theorem faultsOf_eq (ps : List PredicateDraft) : faultsOf ps = ps.flatMap faults := by
  induction ps with
  | nil => rfl
  | cons p ps ih => rw [faultsOf, ih, List.flatMap_cons]

end PredicateDraft

/-- The faults of arguments are those of the predicates among them. -/
theorem ArgumentDraft.faultsOf_eq (as : List ArgumentDraft) :
    ArgumentDraft.faultsOf as =
      (as.flatMap ArgumentDraft.children).flatMap PredicateDraft.faults := by
  induction as with
  | nil => rfl
  | cons a as ih =>
    rw [ArgumentDraft.faultsOf, ih, List.flatMap_cons, List.flatMap_append]
    cases a <;> simp [ArgumentDraft.faults, ArgumentDraft.children]

namespace PredicateDraft

/-- The faults of a draft are its own and those of the drafts directly in it. -/
theorem mem_faults_iff_children {d : PredicateDraft} {r : Refusal} :
    r ∈ d.faults ↔ d.Fails r ∨ ∃ c ∈ d.children, r ∈ c.faults := by
  cases d with
  | compare column op operand => simp [faults, Fails, children, mem_integerFaults]
  | member column op values subquery =>
    -- the subquery contributes its own faults and those of its conditions
    have hsubquery : r ∈ SubqueryDraft.faults? subquery ↔ (∃ q, subquery = some q ∧ q.Fails r) ∨
        ∃ c ∈ subquery.toList.flatMap SubqueryDraft.conditions, r ∈ c.faults := by
      cases subquery with
      | none => simp [SubqueryDraft.faults?]
      | some q => simp [SubqueryDraft.faults?, SubqueryDraft.mem_faults]
    rw [faults, Fails, children, List.mem_append, List.mem_append, mem_sourceFaults,
      mem_integerFaults, hsubquery, or_assoc, or_assoc]
  -- a call has no fault of its own
  | call function args =>
    have hsound : ¬ (call function args).Fails r := id
    rw [faults, children, ArgumentDraft.faultsOf_eq, List.mem_flatMap, or_iff_right hsound]
  | group op members =>
    rw [faults, Fails, children, faultsOf_eq, List.mem_append, List.mem_flatMap, mem_memberFaults]
    exact or_comm
  | _ => simp [faults, Fails, children]

/-- The faults of a draft are those of its parts. -/
theorem mem_faults {d : PredicateDraft} {r : Refusal} :
    r ∈ d.faults ↔ ∃ part : PredicateDraft, part.PartOf d ∧ part.Fails r := by
  constructor
  · induction d using children_induction with
    | step d ih =>
      intro hr
      rcases mem_faults_iff_children.mp hr with hown | ⟨c, hc, hr⟩
      · exact ⟨d, .refl, hown⟩
      · obtain ⟨part, hpart, hfails⟩ := ih c hc hr
        exact ⟨part, .tail hpart hc, hfails⟩
  · rintro ⟨part, hpart, hfails⟩
    -- from the part upwards, each draft has the faults of those in it
    induction hpart with
    | refl => exact mem_faults_iff_children.mpr (.inl hfails)
    | tail _ hchild ih => exact mem_faults_iff_children.mpr (.inr ⟨_, hchild, ih⟩)

end PredicateDraft

end RowPolicy
