import RowPolicy.Proofs.Subquery.Filters
import RowPolicy.Proofs.Subquery.Names

namespace RowPolicy

/-!
# The advice that comes with a refused filter

A filter that is refused reports the tables that are missing, and a hint says what to do about
them.  A join brings in one name.  So it helps if one table is missing and there is no join
yet, and no join helps otherwise:

* `Hint.ProposesJoin` — a hint that says to add a join;
* `Subquery.attach_eq_ok` — what an accepted join does;
* `Subquery.restrict_joined_iff` — which joins let a filter pass;
* `Subquery.hint_right` — the hint proposes a join exactly where one helps.
-/

/-! ### Wording -/

namespace Hint

/-- A hint that says to add a join. -/
def ProposesJoin (hint : Hint) : Prop := ∃ rest, hint.message = "add .join(" ++ rest

/-- The advice to join a table proposes a join. -/
theorem proposesJoin_addJoin (table : String) : (addJoin table).ProposesJoin := by
  have hword : "add .join(JoinClause::inner(\"" = "add .join(" ++ "JoinClause::inner(\"" := by
    decide +kernel
  refine ⟨"JoinClause::inner(\"" ++ table ++ "\", <on condition>)) before .filter(...)", ?_⟩
  show "add .join(JoinClause::inner(\"" ++ table ++ "\", <on condition>)) before .filter(...)" = _
  simp only [hword, String.append_assoc]

/-- A hint that begins with other words proposes no join. -/
theorem not_proposesJoin {hint : Hint} {words rest : String}
    (hmessage : hint.message = words ++ rest) (hlength : 4 ≤ words.toList.length)
    (hwords : words.toList.take 4 ≠ "add .join(".toList.take 4) : ¬ hint.ProposesJoin := by
  rintro ⟨others, hothers⟩
  have htake {s : String} (hs : 4 ≤ s.toList.length) (t : String) :
      (s ++ t).toList.take 4 = s.toList.take 4 := by
    rw [String.toList_append, List.take_append_of_le_length hs]
  apply hwords
  rw [← htake hlength rest, ← hmessage, hothers, htake (by decide +kernel)]

/-- It is the only advice that does. -/
theorem proposesJoin_iff {hint : Hint} : hint.ProposesJoin ↔ ∃ table, hint = .addJoin table := by
  cases hint with
  | addJoin table => exact iff_of_true (proposesJoin_addJoin table) ⟨table, rfl⟩
  -- the other three begin with words of their own
  | onlyJoined available table =>
    have hmessage : (onlyJoined available table).message =
        "the ON clause may only reference " ++ (joined ", " available ++ (" and " ++ table)) := by
      rw [← String.append_assoc, ← String.append_assoc]
      rfl
    exact iff_of_false (not_proposesJoin hmessage (by decide +kernel) (by decide +kernel)) (by simp)
  | alreadyJoins table =>
    have hmessage : (alreadyJoins table).message = "this subquery already joins '" ++
        (table ++ "'; use a nested subquery for other tables") := String.append_assoc
    exact iff_of_false (not_proposesJoin hmessage (by decide +kernel) (by decide +kernel)) (by simp)
  | tooMany tables =>
    have hmessage : (tooMany tables).message = "a subquery can join only one table; " ++
        (joined ", " tables ++ " cannot all be joined here") := String.append_assoc
    exact iff_of_false (not_proposesJoin hmessage (by decide +kernel) (by decide +kernel)) (by simp)

end Hint

namespace Subquery

/-! ### Joins and filters -/

/-- A join is accepted by a subquery without a join that admits it. -/
theorem attach_eq_ok {q joined : Subquery} {j : Join} :
    q.attach j = .ok joined ↔ q.join = none ∧ q.Admits j ∧ joined = q.effect (.attach j) := by
  constructor
  · intro h
    obtain ⟨hfirst, -, hjoined⟩ := apply_eq_ok (s := .attach j).mp h
    -- a second join would have been refused, so this is the first
    have hnone : q.join = none := by
      simpa [isSecondJoin_attach] using hfirst
    exact ⟨hnone, (attach_accepted_iff hnone).mp ⟨joined, h⟩, hjoined⟩
  · rintro ⟨hnone, hadmits, rfl⟩
    obtain ⟨next, hnext⟩ := (attach_accepted_iff hnone).mpr hadmits
    obtain ⟨-, -, rfl⟩ := apply_eq_ok.mp hnext
    exact hnext

/-- Behind a join a filter is accepted if the joined table is the only one that it missed. -/
theorem restrict_joined_iff {q joined : Subquery} {j : Join} (h : q.attach j = .ok joined)
    (p : Predicate) :
    (∃ next, joined.restrict p = .ok next) ↔
      ∀ table ∈ p.missing q.available, table = j.scopeName := by
  obtain ⟨hnone, -, rfl⟩ := attach_eq_ok.mp h
  -- without a join only the table itself is in scope, and behind it the joined one too
  have hbefore (table : String) : table ∈ q.available ↔ table = q.scopeName := by
    simp [mem_available, hnone]
  have hbehind (table : String) :
      table ∈ (q.effect (.attach j)).available ↔ table ∈ q.available ∨ table = j.scopeName := by
    rw [mem_available, hbefore, scopeName_effect]
    simp [effect]
  simp only [restrict_eq_ok, exists_and_left, exists_eq, and_true, Predicate.missing_eq_nil]
  simp only [List.subset_def, hbehind, Predicate.missing, List.mem_filter, decide_eq_true_eq,
    and_imp, or_iff_not_imp_left]

/-- No table is missing twice. -/
theorem missing_nodup (p : Predicate) (available : List String) : (p.missing available).Nodup :=
  p.tables_nodup.filter _

/-! ### The hint -/

/-- A join is advised exactly if there is none and one table is missing. -/
theorem hint_addJoin_iff {q : Subquery} {missing : List String} {table : String} :
    q.hint missing = .addJoin table ↔ q.join = none ∧ missing = [table] := by
  unfold hint
  cases q.join with
  | some existing => simp
  | none =>
    match missing with
    | [] => simp
    | [single] => simp
    | _ :: _ :: _ => simp

/-- **The hint is right.** A refused filter comes with a hint.  If one table is missing and there
    is no join yet, the hint says to join that table; every inner join with it that refers to
    nothing but the main table and the joined one is accepted, and the filter behind it.  If
    more tables are missing, the filter is refused behind every join that is accepted; if there
    is a join, every other one is refused.  In these cases the hint proposes no join. -/
theorem hint_right {q : Subquery} {p : Predicate} {f : Fault} (h : q.restrict p = .error f) :
    ∃ hint, f = .missingTables .filter f.missing q.available hint ∧
      (q.join = none → ∀ table, f.missing = [table] →
        hint = .addJoin table ∧
        ∀ on : Predicate, on.tables ⊆ [q.scopeName, table] →
          ∃ joined, q.attach ⟨.inner, table, none, on⟩ = .ok joined ∧
            ∃ next, joined.restrict p = .ok next) ∧
      (q.join = none → 2 ≤ f.missing.length →
        ∀ j joined, q.attach j = .ok joined → ∃ g, joined.restrict p = .error g) ∧
      (∀ existing, q.join = some existing →
        ∀ j, q.attach j = .error (.duplicateJoin q.table existing.table)) ∧
      (hint.ProposesJoin ↔ q.join = none ∧ ∃ table, f.missing = [table]) := by
  obtain ⟨-, rfl⟩ := restrict_eq_error.mp h
  refine ⟨q.hint (p.missing q.available), rfl, ?single, ?several, ?joined, ?proposes⟩
  case single =>
    intro hnone table hmissing
    refine ⟨hint_addJoin_iff.mpr ⟨hnone, hmissing⟩, fun on hon => ?_⟩
    have hadmits : q.Admits ⟨.inner, table, none, on⟩ := fun t ht => by
      simpa [Join.scopeName] using hon ht
    have hattach := attach_eq_ok.mpr ⟨hnone, hadmits, rfl⟩
    refine ⟨_, hattach, (restrict_joined_iff hattach p).mpr fun t ht => ?_⟩
    exact List.mem_singleton.mp (hmissing ▸ ht)
  case several =>
    intro hnone htwo j joined hattach
    cases hrestrict : joined.restrict p with
    | error g => exact ⟨g, rfl⟩
    | ok next =>
      -- a list without repetition has at most one member that is the name of the joined table
      have hall := (restrict_joined_iff hattach p).mp ⟨next, hrestrict⟩
      have hone := List.nodup_iff_count_le_one.mp (missing_nodup p q.available) j.scopeName
      rw [List.count_eq_length.mpr fun t ht => (hall t ht).symm] at hone
      exact absurd htwo (Nat.not_le_of_lt (Nat.lt_succ_of_le hone))
  case joined =>
    intro existing hsome j
    exact attach_of_isSome hsome j
  case proposes =>
    simp only [Hint.proposesJoin_iff, hint_addJoin_iff, exists_and_left]
    rfl

/-- Teams without a join: a filter that misses one table and passes behind the join that the
    hint proposes, and one that misses two tables and does not pass behind a join.  With a
    join: another one is refused. -/
theorem hint_right_teams :
    let q := ofTable "teams" (some "t")
    let one : Predicate := .compare "m.user_id" .eq (.predicate (.null "t.owner_id" .isNull))
    let two : Predicate := .group .or [.null "m.user_id" .isNull, .null "o.id" .isNull]
    let on : Predicate := .compare "m.team_id" .eq (.predicate (.null "t.id" .isNotNull))
    let members : Join := ⟨.left, "members", some "m", on⟩
    (∃ f, q.restrict one = .error f ∧ f.missing = ["m"] ∧
      ∃ joined, q.attach ⟨.inner, "m", none, on⟩ = .ok joined ∧
        ∃ next, joined.restrict one = .ok next) ∧
    ∃ joined, q.attach members = .ok joined ∧
      (∃ g, joined.restrict two = .error g) ∧
      joined.attach ⟨.inner, "o", none, on⟩ = .error (.duplicateJoin "teams" "members") := by
  intro q one two on members
  -- the filter is refused, and the join that is advised makes it fit
  have hone := restrict_eq_error (q := q) (p := one).mpr ⟨by decide +kernel, rfl⟩
  have htwo := restrict_eq_error (q := q) (p := two).mpr ⟨by decide +kernel, rfl⟩
  have hjoined : q.attach members = .ok (q.effect (.attach members)) :=
    attach_eq_ok.mpr ⟨rfl, by decide +kernel, rfl⟩
  -- once there is a join, no advice proposes another
  have hother := restrict_eq_error (q := q.effect (.attach members)) (p := .null "o.id" .isNull).mpr
    ⟨by decide +kernel, rfl⟩
  obtain ⟨_, -, hsingle, -⟩ := hint_right hone
  obtain ⟨_, -, -, hseveral, -⟩ := hint_right htwo
  obtain ⟨_, -, -, -, hsecond, -⟩ := hint_right hother
  refine ⟨⟨_, hone, by decide +kernel, ?_⟩, _, hjoined, ?_, ?_⟩
  · exact (hsingle rfl "m" (by decide +kernel)).2 on (by decide +kernel)
  · exact hseveral rfl (by decide +kernel) members _ hjoined
  · exact hsecond members rfl _

end Subquery

end RowPolicy
