import RowPolicy.Proofs.Subquery.Scope
import RowPolicy.Proofs.Success

namespace RowPolicy

/-!
# Filters one after the other

A filter on top of an earlier one is combined with it, and both are checked against the same
scope.  So two filters are one filter, the group of both, whether they are accepted or
refused:

* `Subquery.restrict_eq_ok`, `Subquery.restrict_eq_error` — when a filter is accepted, and the
  fault of one that is not;
* `Subquery.addFilter_addFilter` — what two filters make of a subquery;
* `Subquery.reported` — the tables that a step is refused for;
* `Subquery.restrict_twice` — two filters and the group of both.
-/

/-- Under one connective, three predicates make the same group in either order of the
    parentheses. -/
theorem Predicate.combine_assoc (op : Connective) (p q r : Predicate) :
    combine op (combine op p q) r = combine op p (combine op q r) := by
  simp only [combine, operands, if_pos, List.append_assoc]

namespace Subquery

/-! ### One filter -/

/-- A filter is set exactly if none of its tables is missing. -/
theorem restrict_eq_ok {q next : Subquery} {p : Predicate} :
    q.restrict p = .ok next ↔ p.missing q.available = [] ∧ next = q.addFilter p := by
  rw [restrict]
  cases p.missing q.available <;> simp [eq_comm]

/-- A filter is refused with the tables it misses, and the advice for them. -/
theorem restrict_eq_error {q : Subquery} {p : Predicate} {f : Fault} :
    q.restrict p = .error f ↔
      p.missing q.available ≠ [] ∧
        f = .missingTables .filter (p.missing q.available) q.available
          (q.hint (p.missing q.available)) := by
  rw [restrict]
  cases p.missing q.available <;> simp [eq_comm]

/-- The tables that a step is refused for; none if it is accepted. -/
def reported (q : Subquery) (s : Step) : List String :=
  match q.apply s with
  | .ok _ => []
  | .error f => f.missing

/-- What a filter would be refused for are the tables it misses. -/
theorem reported_restrict (q : Subquery) (p : Predicate) :
    q.reported (.restrict p) = p.missing q.available := by
  rw [reported, apply]
  cases hrestrict : q.restrict p with
  | ok next => exact (restrict_eq_ok.mp hrestrict).1.symm
  | error f =>
    rw [(restrict_eq_error.mp hrestrict).2]
    rfl

/-! ### Two filters -/

/-- Two filters are added as the group of both, on top of an earlier filter as well. -/
theorem addFilter_addFilter (q : Subquery) (p r : Predicate) :
    (q.addFilter p).addFilter r = q.addFilter (p.and r) := by
  simp only [addFilter]
  cases q.filter with
  | none => rfl
  | some existing => simp only [Predicate.and, Predicate.combine_assoc]

/-- **Two filters are one filter.** One filter and then another one are accepted if and only if
    the group of both is, and make the same subquery of it.  The group is refused for the
    tables that the first one would be refused for, then those of the second one that are not
    among them, with the advice that goes with these tables together. -/
theorem restrict_twice (q : Subquery) (p r : Predicate) :
    let first := q.reported (.restrict p)
    let second := q.reported (.restrict r)
    let missing := first ++ second.filter fun table => table ∉ first
    (∀ next, (q.restrict p >>= fun between => between.restrict r) = .ok next ↔
      q.restrict (p.and r) = .ok next) ∧
    ∀ f, q.restrict (p.and r) = .error f ↔
      missing ≠ [] ∧ f = .missingTables .filter missing q.available (q.hint missing) := by
  intro first second missing
  have hfirst : first = p.missing q.available := reported_restrict q p
  have hsecond : second = r.missing q.available := reported_restrict q r
  -- of both together, the second one's tables follow where they are new
  have hmissing : (p.and r).missing q.available = missing := by
    rw [Predicate.and, Predicate.missing_combine, ← hfirst, ← hsecond]
  refine ⟨fun next => ?_, fun f => ?_⟩
  -- nothing is missing of both exactly if nothing is missing of either
  · have hnil : missing = [] ↔ first = [] ∧ second = [] := by
      rw [List.append_eq_nil_iff]
      exact and_congr_right fun hnone => by simp [hnone]
    rw [bind_eq_ok, restrict_eq_ok, hmissing, hnil, hfirst, hsecond]
    constructor
    -- the first filter leaves the scope as it is, so the second one is judged in the same
    · rintro ⟨between, hone, htwo⟩
      obtain ⟨hp, rfl⟩ := restrict_eq_ok.mp hone
      obtain ⟨hr, rfl⟩ := restrict_eq_ok.mp htwo
      exact ⟨⟨hp, hr⟩, addFilter_addFilter q p r⟩
    · rintro ⟨⟨hp, hr⟩, rfl⟩
      exact ⟨q.addFilter p, restrict_eq_ok.mpr ⟨hp, rfl⟩,
        restrict_eq_ok.mpr ⟨hr, (addFilter_addFilter q p r).symm⟩⟩
  · rw [restrict_eq_error, hmissing]

example : (ofTable "teams" (some "t")).reported (.restrict
    ((Predicate.null "m.id" .isNull).and (.call "f" [.column "o.id", .column "m.id"]))) =
      ["m", "o"] := by decide +kernel

end Subquery

end RowPolicy
