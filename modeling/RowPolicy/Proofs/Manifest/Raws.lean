import RowPolicy.Proofs.Manifest.Realize
import RowPolicy.Proofs.Policy.Statements

namespace RowPolicy

/-!
# SQL in drafts that is taken over

A manifest may hold SQL that is taken over as it is.  Realizing a draft takes over what
the draft holds and `now()`, and nothing else.

* `PredicateDraft.raws`, `PolicyDraft.raws`, `Manifest.raws` — the texts in a draft that
  are taken over;
* `PredicateDraft.raws_realize` — predicates, by recursion on all sorts of drafts at once;
* `PolicyDraft.raws_realize`, `Manifest.raws_realize` — policies and groups.
-/

/-! ### Texts that are taken over -/

mutual

/-- The texts in a draft of an operand that are taken over as they are. -/
def OperandDraft.raws : OperandDraft → List String
  | .array items => OperandDraft.rawsOf items
  | .raw sql => [sql]
  | _ => []

/-- Those in some drafts. -/
def OperandDraft.rawsOf : List OperandDraft → List String
  | [] => []
  | v :: vs => v.raws ++ OperandDraft.rawsOf vs

end

/-- Those in the values of a membership, if there are any. -/
def OperandDraft.rawsOf? : Option (List OperandDraft) → List String
  | none => []
  | some values => OperandDraft.rawsOf values

mutual

/-- The texts in a draft of a predicate that are taken over as they are. -/
def PredicateDraft.raws : PredicateDraft → List String
  | .compare _ _ operand => operand.raws
  | .member _ _ values subquery => OperandDraft.rawsOf? values ++ SubqueryDraft.raws? subquery
  | .call _ args => ArgumentDraft.rawsOf args
  | .group _ members => PredicateDraft.rawsOf members
  | _ => []

/-- Those in some drafts. -/
def PredicateDraft.rawsOf : List PredicateDraft → List String
  | [] => []
  | p :: ps => p.raws ++ PredicateDraft.rawsOf ps

/-- Those in a draft, if there is one. -/
def PredicateDraft.raws? : Option PredicateDraft → List String
  | none => []
  | some p => p.raws

/-- Those in a draft of an argument. -/
def ArgumentDraft.raws : ArgumentDraft → List String
  | .column _ => []
  | .predicate p => p.raws

/-- Those in some drafts of arguments. -/
def ArgumentDraft.rawsOf : List ArgumentDraft → List String
  | [] => []
  | a :: as => a.raws ++ ArgumentDraft.rawsOf as

/-- Those in a draft of a join, if there is one. -/
def JoinDraft.raws? : Option JoinDraft → List String
  | none => []
  | some ⟨_, _, _, on⟩ => on.raws

/-- Those in a draft of a subquery. -/
def SubqueryDraft.raws : SubqueryDraft → List String
  | ⟨_, _, _, join, filter⟩ => JoinDraft.raws? join ++ PredicateDraft.raws? filter

/-- Those in a draft of a subquery, if there is one. -/
def SubqueryDraft.raws? : Option SubqueryDraft → List String
  | none => []
  | some q => q.raws

end

/-- The texts in a draft of a policy that are taken over as they are. -/
def PolicyDraft.raws (draft : PolicyDraft) : List String :=
  PredicateDraft.raws? draft.usingExpr ++ PredicateDraft.raws? draft.checkExpr ++
    PredicateDraft.raws? draft.allow

/-- The texts in a manifest that are taken over as they are. -/
def Manifest.raws (m : Manifest) : List String :=
  m.groups.flatMap fun group => group.policies.flatMap PolicyDraft.raws

/-! ### Operands -/

variable {allowed : List String}

/-- Texts that are `now()` or allowed. -/
def Within (allowed raws : List String) : Prop := ∀ s ∈ raws, s = rawNow ∨ s ∈ allowed

/-- Where nothing is taken over, everything taken over is allowed. -/
theorem within_nil : Within allowed [] := by simp [Within]

/-- Text taken over by two is allowed if that of both is. -/
theorem within_append {raws others : List String} :
    Within allowed (raws ++ others) ↔ Within allowed raws ∧ Within allowed others :=
  List.forall_mem_append

namespace OperandDraft

mutual

/-- An operand takes over no more than its draft. -/
theorem raws_realize : (d : OperandDraft) → Within allowed d.raws →
    ∀ {v : Operand}, d.realize = .ok v → Within allowed v.raws
  | .null, _, _, h | .bool _, _, _, h | .float _, _, _, h | .text _, _, _, h
  | .instant _, _, _, h | .context _, _, _, h => by
    cases h
    exact within_nil
  | .integer n, _, v, h => by
    -- an integer is written or refused
    rw [realize, realizeInteger] at h
    split at h
    · cases h
      exact within_nil
    · cases h
  | .array items, hraws, v, h => by
    rw [realize, bind_eq_ok] at h
    obtain ⟨vs, hvs, h⟩ := h
    cases h
    rw [Operand.raws]
    exact raws_realizes items hraws hvs
  | .raw sql, hraws, v, h => by
    cases h
    exact hraws

theorem raws_realizes : (ds : List OperandDraft) → Within allowed (rawsOf ds) →
    ∀ {vs : List Operand}, realizes ds = .ok vs → Within allowed (Operand.rawsOf vs)
  | [], _, _, h => by
    cases h
    exact within_nil
  | d :: ds, hraws, vs, h => by
    rw [rawsOf, within_append] at hraws
    obtain ⟨v, hv, rest, hrest, rfl⟩ := realizes_cons_eq_ok.mp h
    rw [Operand.rawsOf, within_append]
    exact ⟨raws_realize d hraws.1 hv, raws_realizes ds hraws.2 hrest⟩

end

end OperandDraft

/-! ### Groups and subqueries -/

/-- Predicates in two rows take over what those of each row do. -/
theorem Predicate.rawsOf_append (ps qs : List Predicate) :
    rawsOf (ps ++ qs) = rawsOf ps ++ rawsOf qs := by
  induction ps with
  | nil => rfl
  | cons p ps ih => rw [List.cons_append, rawsOf, rawsOf, ih, List.append_assoc]

/-- The operands of a predicate, of which a group has many, take over what it does. -/
theorem Predicate.rawsOf_operands (op : Connective) (p : Predicate) :
    rawsOf (p.operands op) = p.raws := by
  unfold operands
  split
  · split
    · rw [raws]
    · simp [rawsOf]
  · simp [rawsOf]

/-- Combining takes over what the two predicates do. -/
theorem Predicate.raws_combine (op : Connective) (p q : Predicate) :
    (combine op p q).raws = p.raws ++ q.raws := by
  rw [combine, raws, rawsOf_append, rawsOf_operands, rawsOf_operands]

/-- A fold takes over what its start and all that is folded into it do. -/
theorem Predicate.raws_foldl (op : Connective) (p : Predicate) (ps : List Predicate) :
    (ps.foldl (combine op) p).raws = p.raws ++ rawsOf ps := by
  induction ps generalizing p with
  | nil => simp [rawsOf]
  | cons q ps ih => rw [List.foldl_cons, ih, raws_combine, rawsOf, List.append_assoc]

/-- A group takes over what its members do. -/
theorem Connective.raws_realizeGroup {op : Connective} {members : List Predicate} {p : Predicate}
    (h : op.realizeGroup members = .ok p) : p.raws = Predicate.rawsOf members := by
  cases members with
  | nil => cases h
  | cons q members =>
    cases h
    rw [Predicate.raws_foldl, Predicate.rawsOf]

/-- A subquery takes over what its join and its filter do. -/
theorem Subquery.raws_eq (q : Subquery) :
    q.raws = Join.rawsOf q.join ++ Predicate.filterRaws q.filter := by
  cases q
  rw [raws]

/-- A subquery that only selects takes over nothing. -/
theorem Subquery.raws_selecting (table : String) (aliasName : Option String)
    (columns : List String) : (selecting table aliasName columns).raws = [] := by
  unfold selecting
  split <;> rfl

/-- A join adds what its condition takes over. -/
theorem Subquery.raws_attach {q attached : Subquery} {j : Join} (h : q.attach j = .ok attached) :
    attached.raws = j.raws ++ q.raws := by
  unfold attach at h
  -- a second join is refused, and the first one needs its tables
  cases hjoin : q.join with
  | some existing =>
    rw [hjoin] at h
    cases h
  | none =>
    rw [hjoin] at h
    dsimp only at h
    split at h
    · cases h
      rw [raws_eq q, raws_eq, hjoin, Join.rawsOf, Join.rawsOf, List.nil_append]
    · cases h

/-- One more filter adds what it takes over, whether or not there is one already. -/
theorem Subquery.raws_addFilter (q : Subquery) (p : Predicate) :
    (q.addFilter p).raws = q.raws ++ p.raws := by
  rw [raws_eq q, raws_eq, addFilter]
  cases q.filter with
  | none =>
    show Join.rawsOf q.join ++ p.raws = Join.rawsOf q.join ++ [] ++ p.raws
    rw [List.append_nil]
  | some existing =>
    show Join.rawsOf q.join ++ (Predicate.combine .and existing p).raws = _
    rw [Predicate.raws_combine, Predicate.filterRaws, List.append_assoc]

/-- A restriction adds what its filter takes over. -/
theorem Subquery.raws_restrict {q restricted : Subquery} {p : Predicate}
    (h : q.restrict p = .ok restricted) : restricted.raws = q.raws ++ p.raws := by
  unfold restrict at h
  split at h
  · cases h
    exact raws_addFilter q p
  · cases h

/-! ### Predicates and subqueries -/

mutual

/-- A predicate takes over no more than its draft, but for the clock of a release. -/
theorem PredicateDraft.raws_realize : (d : PredicateDraft) → Within allowed d.raws →
    ∀ {p : Predicate}, d.realize = .ok p → Within allowed p.raws
  | .compare column op operand, hraws, p, h => by
    rw [PredicateDraft.realize, bind_eq_ok] at h
    obtain ⟨v, hv, h⟩ := h
    cases h
    exact operand.raws_realize hraws hv
  | .pattern column op pattern, _, p, h | .null column test, _, p, h | .isOwner column, _, p, h
  | .isPublic column, _, p, h | .belongsToTenant column setting, _, p, h
  | .isMemberOf table foreignKey localKey, _, p, h | .hasRole role table, _, p, h
  | .alwaysTrue, _, p, h | .userBelongsTo column table select, _, p, h => by
    cases h
    exact within_nil
  | .releasedBefore column date, _, p, h => by
    cases h
    cases date with
    | none => simp [Predicate.releasedBefore, Predicate.raws, Operand.raws, Within, rawNow]
    | some t => exact within_nil
  | .member column op (some values) none, hraws, p, h => by
    rw [PredicateDraft.raws, within_append] at hraws
    rw [PredicateDraft.realize, bind_eq_ok] at h
    obtain ⟨vs, hvs, h⟩ := h
    cases h
    exact OperandDraft.raws_realizes values hraws.1 hvs
  | .member column op none (some subquery), hraws, p, h => by
    rw [PredicateDraft.raws, within_append] at hraws
    rw [PredicateDraft.realize, bind_eq_ok] at h
    obtain ⟨q, hq, h⟩ := h
    cases h
    exact subquery.raws_realize hraws.2 hq
  -- neither source or both: the draft is refused
  | .member column op none none, hraws, p, h
  | .member column op (some _) (some _), hraws, p, h => by
    cases h
  | .call function args, hraws, p, h => by
    rw [PredicateDraft.realize, bind_eq_ok] at h
    obtain ⟨as, has, h⟩ := h
    cases h
    exact ArgumentDraft.raws_realizes args hraws has
  | .group op members, hraws, p, h => by
    rw [PredicateDraft.realize, bind_eq_ok] at h
    obtain ⟨ps, hps, h⟩ := h
    rw [Connective.raws_realizeGroup h]
    exact PredicateDraft.raws_realizes members hraws hps

theorem PredicateDraft.raws_realizes :
    (ds : List PredicateDraft) → Within allowed (PredicateDraft.rawsOf ds) →
    ∀ {ps : List Predicate}, PredicateDraft.realizes ds = .ok ps →
      Within allowed (Predicate.rawsOf ps)
  | [], _, _, h => by
    cases h
    exact within_nil
  | d :: ds, hraws, ps, h => by
    rw [PredicateDraft.rawsOf, within_append] at hraws
    obtain ⟨p, hp, rest, hrest, rfl⟩ := PredicateDraft.realizes_cons_eq_ok.mp h
    rw [Predicate.rawsOf, within_append]
    exact ⟨PredicateDraft.raws_realize d hraws.1 hp, PredicateDraft.raws_realizes ds hraws.2 hrest⟩

/-- An argument takes over no more than its draft. -/
theorem ArgumentDraft.raws_realize : (d : ArgumentDraft) → Within allowed d.raws →
    ∀ {a : Argument}, d.realize = .ok a → Within allowed a.raws
  | .column reference, _, a, h => by
    cases h
    exact within_nil
  | .predicate d, hraws, a, h => by
    rw [ArgumentDraft.realize, bind_eq_ok] at h
    obtain ⟨p, hp, h⟩ := h
    cases h
    exact d.raws_realize hraws hp

theorem ArgumentDraft.raws_realizes :
    (ds : List ArgumentDraft) → Within allowed (ArgumentDraft.rawsOf ds) →
    ∀ {as : List Argument}, ArgumentDraft.realizes ds = .ok as → Within allowed (Argument.rawsOf as)
  | [], _, _, h => by
    cases h
    exact within_nil
  | d :: ds, hraws, as, h => by
    rw [ArgumentDraft.rawsOf, within_append] at hraws
    obtain ⟨a, ha, rest, hrest, rfl⟩ := ArgumentDraft.realizes_cons_eq_ok.mp h
    rw [Argument.rawsOf, within_append]
    exact ⟨ArgumentDraft.raws_realize d hraws.1 ha, ArgumentDraft.raws_realizes ds hraws.2 hrest⟩

/-- A subquery with its join takes over no more than its start and the draft of the join. -/
theorem JoinDraft.raws_attachTo {q : Subquery} (hq : Within allowed q.raws) :
    (join : Option JoinDraft) → Within allowed (JoinDraft.raws? join) →
      ∀ {attached : Subquery}, JoinDraft.attachTo q join = .ok attached →
        Within allowed attached.raws
  | none, _, attached, h => by
    cases h
    exact hq
  | some ⟨kind, table, aliasName, on⟩, hraws, attached, h => by
    rw [JoinDraft.attachTo, bind_eq_ok] at h
    obtain ⟨p, hp, h⟩ := h
    rw [mapError_eq_ok] at h
    rw [Subquery.raws_attach h, within_append]
    exact ⟨on.raws_realize hraws hp, hq⟩

/-- A subquery with its filter takes over no more than before and the draft of the filter. -/
theorem PredicateDraft.raws_restrictTo {q : Subquery} (hq : Within allowed q.raws) :
    (filter : Option PredicateDraft) → Within allowed (PredicateDraft.raws? filter) →
      ∀ {restricted : Subquery}, PredicateDraft.restrictTo q filter = .ok restricted →
        Within allowed restricted.raws
  | none, _, restricted, h => by
    cases h
    exact hq
  | some d, hraws, restricted, h => by
    rw [PredicateDraft.restrictTo, bind_eq_ok] at h
    obtain ⟨p, hp, h⟩ := h
    rw [mapError_eq_ok] at h
    rw [Subquery.raws_restrict h, within_append]
    exact ⟨hq, d.raws_realize hraws hp⟩

/-- A subquery takes over no more than its draft. -/
theorem SubqueryDraft.raws_realize : (d : SubqueryDraft) → Within allowed d.raws →
    ∀ {q : Subquery}, d.realize = .ok q → Within allowed q.raws
  | ⟨table, aliasName, columns, join, filter⟩, hraws, q, h => by
    rw [SubqueryDraft.raws, within_append] at hraws
    rw [SubqueryDraft.realize, bind_eq_ok] at h
    obtain ⟨attached, hattached, h⟩ := h
    have hstart : Within allowed (Subquery.selecting table aliasName columns).raws := by
      rw [Subquery.raws_selecting]
      exact within_nil
    -- the join is attached first, then the filter
    exact PredicateDraft.raws_restrictTo (JoinDraft.raws_attachTo hstart join hraws.1 hattached)
      filter hraws.2 h

end

/-! ### Policies and groups -/

/-- The texts in a setting that are taken over as they are. -/
def Policy.Setter.raws : Policy.Setter → List String
  | .rowsFound p | .rowsWritten p | .allow p => p.raws
  | _ => []

/-- A setter gives a policy no more text than its own predicate has. -/
theorem Policy.raws_set {policy : Policy} {setter : Policy.Setter}
    (hpolicy : Within allowed policy.raws) (hsetter : Within allowed setter.raws) :
    Within allowed (policy.set setter).raws := by
  obtain ⟨husing, hcheck⟩ := within_append.mp hpolicy
  cases setter with
  | role | restrictive | description => exact hpolicy
  | rowsFound p => exact within_append.mpr ⟨hsetter, hcheck⟩
  | rowsWritten p => exact within_append.mpr ⟨husing, hsetter⟩
  | allow p =>
    -- each clause is set or stays as it was, as the command says
    refine within_append.mpr ⟨?_, ?_⟩
    · show Within allowed (Predicate.filterRaws (if _ then some p else _))
      split
      · exact hsetter
      · exact husing
    · show Within allowed (Predicate.filterRaws (if _ then some p else _))
      split
      · exact hsetter
      · exact hcheck

/-- Setters in a row give a policy no more text than theirs. -/
theorem Policy.raws_setAll {policy : Policy} {setters : List Policy.Setter}
    (hpolicy : Within allowed policy.raws) (hsetters : ∀ t ∈ setters, Within allowed t.raws) :
    Within allowed (policy.setAll setters).raws := by
  induction setters generalizing policy with
  | nil => exact hpolicy
  | cons setter setters ih =>
    rw [List.forall_mem_cons] at hsetters
    exact ih (raws_set hpolicy hsetters.1) hsetters.2

/-- A template takes over nothing. -/
theorem Template.raws_policy (template : Template) (table : String) :
    Within allowed (template.policy table).raws := by
  have hpredicate : template.predicate.raws = [] := by cases template <;> rfl
  have hsetter : Within allowed (Policy.Setter.allow template.predicate).raws := by
    rw [Policy.Setter.raws, hpredicate]
    exact within_nil
  exact Policy.raws_set within_nil hsetter

namespace PolicyDraft

/-- A setter takes over no more than the draft of its predicate. -/
theorem raws_setting {setter : Predicate → Policy.Setter} (hsetter : ∀ p, (setter p).raws = p.raws)
    {draft : Option PredicateDraft} (hraws : Within allowed (PredicateDraft.raws? draft))
    {setters : List Policy.Setter} (h : setting setter draft = .ok setters) :
    ∀ t ∈ setters, Within allowed t.raws := by
  obtain ⟨rfl, rfl⟩ | ⟨d, p, rfl, hp, rfl⟩ := setting_eq_ok.mp h
  · simp
  · rw [List.forall_mem_singleton, hsetter]
    exact d.raws_realize hraws hp

/-- The policy a draft starts from takes over no more than the draft. -/
theorem raws_base {draft : PolicyDraft} {policy : Policy} (hraws : Within allowed draft.raws)
    (h : draft.base = .ok policy) : Within allowed policy.raws := by
  -- the start is a template's policy, or the explicit one with its three predicates
  obtain ⟨template, -, -, rfl⟩ | ⟨-, hexplicit⟩ := base_eq_ok.mp h
  · exact template.raws_policy draft.table
  · obtain ⟨name, command, setters, -, -, hpredicates, rfl⟩ := explicit_eq_ok.mp hexplicit
    obtain ⟨allow, found, written, hallow, hfound, hwritten, rfl⟩ := predicates_eq_ok.mp hpredicates
    rw [raws, within_append, within_append] at hraws
    apply Policy.raws_setAll within_nil
    rw [List.forall_mem_append, List.forall_mem_append]
    exact ⟨⟨raws_setting (fun _ => rfl) hraws.2 hallow,
      raws_setting (fun _ => rfl) hraws.1.1 hfound⟩,
      raws_setting (fun _ => rfl) hraws.1.2 hwritten⟩

/-- The settings other than the predicates take over nothing. -/
theorem raws_settings (draft : PolicyDraft) : ∀ t ∈ draft.settings, t.raws = [] := by
  intro t ht
  simp only [settings, List.mem_append, Option.mem_toList, Option.map_eq_some_iff] at ht
  -- a role, the mark of a restrictive policy, a description:  none has a predicate
  obtain (⟨_, -, rfl⟩ | ht) | ⟨_, -, rfl⟩ := ht
  · rfl
  · split at ht
    · rw [List.mem_singleton] at ht
      rw [ht]
      rfl
    · cases ht
  · rfl

/-- The policy of a draft takes over what the draft holds and `now()`. -/
theorem raws_realize {draft : PolicyDraft} {policy : Policy} (hraws : Within allowed draft.raws)
    (h : draft.realize = .ok policy) : Within allowed policy.raws := by
  obtain ⟨start, settled, hstart, rfl, -, rfl⟩ := realize_eq_ok.mp h
  -- settings hold no predicates, and the name does not count
  refine Policy.raws_setAll (raws_base hraws hstart) fun t ht => ?_
  rw [raws_settings draft t ht]
  exact within_nil

end PolicyDraft

/-- The policies of a manifest take over what the manifest holds and `now()`. -/
theorem Manifest.raws_realize {m : Manifest} {groups : List PolicyGroup}
    (hraws : Within allowed m.raws) (h : m.realize = .ok groups) :
    ∀ group ∈ groups, ∀ policy ∈ group.policies, Within allowed policy.raws := by
  intro group hgroup policy hpolicy
  obtain ⟨groupDraft, hgroupDraft, hrealizes⟩ :=
    exists_of_mem_right (realizes_of_ok h).2 hgroup
  obtain ⟨draft, hdraft, hrealize⟩ := exists_of_mem_right hrealizes.policies hpolicy
  refine PolicyDraft.raws_realize (fun s hs => hraws s ?_) hrealize
  exact List.mem_flatMap.mpr ⟨groupDraft, hgroupDraft, List.mem_flatMap.mpr ⟨draft, hdraft, hs⟩⟩

end RowPolicy
