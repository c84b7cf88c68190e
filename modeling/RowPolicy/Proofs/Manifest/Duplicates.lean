import Mathlib.Data.List.Nodup
import RowPolicy.Proofs.Manifest.Script
import RowPolicy.Proofs.Policy.ReadBack

namespace RowPolicy

open Sql

/-!
# Policies that a manifest defines twice

A database refuses a second policy of one name on one table.  A manifest is refused if two of
its policies have one name and tables that are spelled alike; the tables are written with
their names in quotes, though, so that tables with different spellings may be written alike.

* `Policy.key`, `Policy.writtenKey` — what tells policies apart, as given and as written;
* `Manifest.nodup_keys` — the policies of a manifest differ as given;
* `Sql.createdPolicies`, `Manifest.createdPolicies_eq` — the policies that a text creates;
* `Manifest.sql_distinct_iff` — when they differ in the text of a manifest.
-/

namespace Policy

/-- What tells the policies of a manifest apart. -/
def key (policy : Policy) : String × String := (policy.table, policy.name)

/-- The name and the table of a policy, as they are written. -/
def writtenKey (policy : Policy) : String × String :=
  (quoteIdentifier policy.name, Reference.quoted policy.table)

/-- Two policies are written under one key exactly if they have one name, and tables that are one
    once quoted. -/
theorem writtenKey_eq_iff {p q : Policy} :
    p.writtenKey = q.writtenKey ↔ p.name = q.name ∧ quotedPath p.table = quotedPath q.table := by
  rw [writtenKey, writtenKey, Prod.mk.injEq, quoted_eq_quoted_iff]
  exact and_congr_left fun _ => ⟨Reference.quoteIdentifier_injective, fun h => by rw [h]⟩

/-- Policies that differ as given differ as written unless two tables with one path are
    spelled in two ways. -/
theorem nodup_writtenKeys_iff {policies : List Policy} (h : (policies.map key).Nodup) :
    (policies.map writtenKey).Nodup ↔
      ∀ p ∈ policies, ∀ q ∈ policies, p.name = q.name →
        quotedPath p.table = quotedPath q.table → p.table = q.table := by
  constructor
  · intro hwritten p hp q hq hname hpath
    have heq : p = q :=
      List.inj_on_of_nodup_map hwritten hp hq (writtenKey_eq_iff.mpr ⟨hname, hpath⟩)
    rw [heq]
  · intro hspelled
    refine (List.Nodup.of_map key h).map_on fun p hp q hq hwritten => ?_
    obtain ⟨hname, hpath⟩ := writtenKey_eq_iff.mp hwritten
    exact List.inj_on_of_nodup_map h hp hq (Prod.ext (hspelled p hp q hq hname hpath) hname)

end Policy

/-! ### Keys as given -/

namespace Manifest

/-- Registering adds the keys of some policies, which have to be new. -/
theorem register_eq_ok {seen all : List (String × String)} {policies : List Policy}
    (hseen : seen.Nodup) :
    register seen policies = .ok all ↔
      all = seen ++ policies.map Policy.key ∧ (seen ++ policies.map Policy.key).Nodup := by
  induction policies generalizing seen with
  | nil => simp [register, hseen, eq_comm]
  | cons policy policies ih =>
    have hkeys : seen ++ (policy :: policies).map Policy.key =
        (seen ++ [policy.key]) ++ policies.map Policy.key := by simp
    rw [register, ← Policy.key]
    by_cases hmem : policy.key ∈ seen
    · -- met before, so the keys are not all different
      rw [if_pos hmem]
      refine ⟨fun h => (nomatch h), fun ⟨_, hnodup⟩ => ?_⟩
      exact absurd List.mem_cons_self (List.disjoint_of_nodup_append hnodup hmem)
    · rw [if_neg hmem, hkeys]
      exact ih (List.nodup_append.mpr ⟨hseen, List.nodup_singleton _, by
        rintro a ha b hb rfl
        rw [List.mem_singleton] at hb
        exact hmem (hb ▸ ha)⟩)

/-- Across groups, too, no policy has the key of one that was met before. -/
theorem nodup_of_realizeGroups {seen : List (String × String)} {drafts : List GroupDraft}
    {groups : List PolicyGroup} (hseen : seen.Nodup) (h : realizeGroups seen drafts = .ok groups) :
    (seen ++ (groups.flatMap (·.policies)).map Policy.key).Nodup := by
  -- the keys met so far grow by one group's, and stay all different as the group was registered
  induction drafts generalizing seen groups with
  | nil =>
    cases h
    simpa using hseen
  | cons draft drafts ih =>
    rw [realizeGroups] at h
    split at h
    · cases h
    · simp only [bind_eq_ok, pure_eq_ok] at h
      obtain ⟨policies, -, all, hregister, groups, hgroups, rfl⟩ := h
      obtain ⟨rfl, hnodup⟩ := (register_eq_ok hseen).mp hregister
      simpa using ih hnodup hgroups

/-- No two policies of an accepted manifest share a name and a table, as it is spelled. -/
theorem nodup_keys {m : Manifest} {groups : List PolicyGroup} (h : m.realize = .ok groups) :
    ((groups.flatMap (·.policies)).map Policy.key).Nodup := by
  unfold realize at h
  split at h
  · cases h
  · exact nodup_of_realizeGroups List.nodup_nil h

end Manifest

/-! ### Keys as written -/

/-- The names and the tables, as they are written, of the policies that a script creates. -/
def Sql.createdPolicies (script : String) : List (String × String) :=
  ((statements script).filterMap Policy.readParts?).map fun parts =>
    (quoteIdentifier parts.name, parts.table)

namespace Policy

/-- A text with another beginning creates no policy. -/
theorem readParts_eq_none {sql : String} (h : after? "CREATE POLICY " sql.toList = none) :
    readParts? sql = none := by
  unfold readParts?
  rw [h]
  rfl

/-- Words do not stand at the start of a text that begins otherwise. -/
theorem after_eq_none {words lead : String} (hwords : ¬ words.toList <+: lead.toList)
    (hlead : ¬ lead.toList <+: words.toList) (rest : String) :
    after? words (lead ++ rest).toList = none := by
  rw [after?, Option.eq_none_iff_forall_ne_some]
  intro tail htail
  have hprefix : words.toList <+: (lead ++ rest).toList :=
    ⟨tail, List.isPrefixOf?_eq_some_iff_append_eq.mp htail⟩
  rw [String.toList_append] at hprefix
  -- of two beginnings of one text, the shorter one begins the other
  obtain h | h := List.prefix_or_prefix_of_prefix hprefix (List.prefix_append lead.toList _)
  · exact hwords h
  · exact hlead h

/-- The statement that enables row level security creates no policy. -/
theorem after_enableSecurity (table : String) :
    after? "CREATE POLICY " (Table.enableSecurity table).toList = none := by
  unfold Table.enableSecurity
  rw [String.append_assoc]
  exact after_eq_none (by simp) (by simp) _

/-- The statement that creates an index creates no policy. -/
theorem after_index (table column : String) :
    after? "CREATE POLICY " (Index.statement table column).toList = none := by
  unfold Index.statement
  simp only [String.append_assoc]
  exact after_eq_none (by simp) (by simp) _

/-- The comment on a policy creates none, whatever the comment says. -/
theorem after_commentStatement (policy : Policy) (description : String) :
    after? "CREATE POLICY " (policy.commentStatement description).toList = none := by
  unfold commentStatement
  simp only [String.append_assoc]
  exact after_eq_none (by simp) (by simp) _

/-- What is read in statements that create policies, and in no others, is read once among the
    statements of a policy. -/
theorem filterMap_statements {α : Type} {read : String → Option α}
    (hother : ∀ s, after? "CREATE POLICY " s.toList = none → read s = none) {policy : Policy}
    {found : α} (hown : read policy.createStatement = some found) (extras : Extras) :
    (policy.statements extras).filterMap read = [found] := by
  -- before and behind the policy's own statement nothing is read
  have hindexes : (if extras.indexes then Index.statements policy.table policy.indexColumns
      else []).filterMap read = [] := by
    cases extras.indexes with
    | false => rfl
    | true =>
      rw [if_pos rfl, Index.statements, List.filterMap_map]
      exact List.filterMap_eq_nil_iff.mpr fun column _ =>
        hother _ (after_index policy.table column)
  have hcomment : (if extras.comments then policy.description.map policy.commentStatement
      else none).toList.filterMap read = [] := by
    refine List.filterMap_eq_nil_iff.mpr fun s hs => ?_
    cases hextra : extras.comments with
    | false => simp [hextra] at hs
    | true =>
      simp only [hextra, if_true, Option.mem_toList, Option.map_eq_some_iff] at hs
      obtain ⟨description, -, rfl⟩ := hs
      exact hother _ (policy.after_commentStatement description)
  rw [statements, List.filterMap_append, hindexes, List.filterMap_cons_some hown, hcomment,
    List.nil_append]

end Policy

namespace Manifest

/-- What is read in statements that create policies, and in no others, is read once for each
    policy among the statements of a manifest. -/
theorem filterMap_statements {α : Type} {read : String → Option α}
    (hother : ∀ s, Policy.after? "CREATE POLICY " s.toList = none → read s = none) (m : Manifest)
    {groups : List PolicyGroup} {found : Policy → α}
    (hown : ∀ policy ∈ groups.flatMap (·.policies),
      read policy.createStatement = some (found policy)) (extras : Extras) (enable : Bool) :
    ((if enable then m.enabling else []) ++
        groups.flatMap fun group => group.policies.flatMap (·.statements extras)).filterMap read =
      (groups.flatMap (·.policies)).map found := by
  -- the statements in front of all groups create no policy either
  have henabling : (if enable then m.enabling else []).filterMap read = [] := by
    cases enable with
    | false => rfl
    | true =>
      rw [if_pos rfl, enabling, List.filterMap_map]
      exact List.filterMap_eq_nil_iff.mpr fun table _ =>
        hother _ (Policy.after_enableSecurity table)
  have hpolicies : ∀ policy ∈ groups.flatMap (·.policies),
      (policy.statements extras).filterMap read = [found policy] :=
    fun policy hpolicy => Policy.filterMap_statements hother (hown policy hpolicy) extras
  rw [List.filterMap_append, henabling, List.nil_append, ← List.flatMap_assoc,
    List.filterMap_flatMap, List.flatMap_congr hpolicies, List.map_eq_flatMap]

/-- The text of a manifest that takes over no SQL, as one script. -/
theorem runs_texts {m : Manifest} (hraws : m.raws = []) {groups : List PolicyGroup}
    (hrealize : m.realize = .ok groups)
    (hclause : ∀ group ∈ groups, ∀ policy ∈ group.policies, policy.HasClause)
    (extras : Extras) (enable : Bool) :
    Runs (joined statementSeparator
        ((if enable then m.enabling else []) ++ groups.map (·.text extras)))
      ((if enable then m.enabling else []) ++
        groups.flatMap fun group => group.policies.flatMap (·.statements extras)) := by
  obtain ⟨hgroups, hrealizes⟩ := realizes_of_ok hrealize
  -- an accepted manifest has a group, so the joined text has a piece
  have hne : groups ≠ [] := by
    rintro rfl
    exact hgroups (List.forall₂_nil_right_iff.mp hrealizes)
  have henabling : ∀ s ∈ (if enable then m.enabling else []), Runs s [s] := by
    cases enable with
    | true => exact m.runs_enabling
    | false => simp
  have hall := Runs.joined (by simp [hne]) (List.rel_append (forall₂_runs henabling)
    (forall₂_runs (runs_groups hraws hrealize hclause extras)))
  rwa [List.map_id', List.flatten_append, ← List.flatMap_def, ← List.flatMap_def,
    List.flatMap_singleton'] at hall

/-- The text of a manifest that takes over no SQL creates its policies, in order, and no
    others. -/
theorem createdPolicies_eq {m : Manifest} (hraws : m.raws = []) {groups : List PolicyGroup}
    (hrealize : m.realize = .ok groups)
    (hclause : ∀ group ∈ groups, ∀ policy ∈ group.policies, policy.HasClause)
    (extras : Extras) (enable : Bool) :
    createdPolicies (joined statementSeparator
        ((if enable then m.enabling else []) ++ groups.map (·.text extras)) ++ ";") =
      (groups.flatMap (·.policies)).map Policy.writtenKey := by
  -- without raw SQL every creating statement is read back to its parts
  have hparts : ∀ policy ∈ groups.flatMap (·.policies),
      Policy.readParts? policy.createStatement = some policy.parts := by
    have hwithin : Within [] m.raws := by
      rw [hraws]
      exact within_nil
    intro policy hpolicy
    obtain ⟨group, hgroup, hpolicy⟩ := List.mem_flatMap.mp hpolicy
    refine Policy.readParts_createStatement fun s hs => ?_
    simpa using raws_realize hwithin hrealize group hgroup policy hpolicy s hs
  rw [createdPolicies, (runs_texts hraws hrealize hclause extras enable).statements_eq,
    filterMap_statements (fun _ => Policy.readParts_eq_none) m hparts, List.map_map]
  rfl

/-- **Duplicates.** The policies in the text of a manifest differ as given, by name and
    table.  They differ as written if and only if no two policies of one name have tables
    that are spelled in two ways but have one path; the text creates these policies, and,
    unless the manifest takes over SQL, no others. -/
theorem sql_distinct_iff {m : Manifest} {extras : Extras} {enable : Bool} {sql : String}
    (h : m.sql extras enable = .ok sql) :
    ∃ groups, m.realize = .ok groups ∧
      sql = joined statementSeparator
        ((if enable then m.enabling else []) ++ groups.map (·.text extras)) ∧
      (m.raws = [] →
        createdPolicies (sql ++ ";") = (groups.flatMap (·.policies)).map Policy.writtenKey) ∧
      ((groups.flatMap (·.policies)).map Policy.key).Nodup ∧
      (((groups.flatMap (·.policies)).map Policy.writtenKey).Nodup ↔
        ∀ p ∈ groups.flatMap (·.policies), ∀ q ∈ groups.flatMap (·.policies), p.name = q.name →
          quotedPath p.table = quotedPath q.table → p.table = q.table) := by
  obtain ⟨groups, hrealize, hclause, rfl⟩ := sql_eq_ok.mp h
  have hkeys := nodup_keys hrealize
  exact ⟨groups, hrealize, rfl,
    fun hraws => createdPolicies_eq hraws hrealize hclause extras enable, hkeys,
    Policy.nodup_writtenKeys_iff hkeys⟩

/-- A draft of a policy on a table, which lets everybody read. -/
def readerDraft (name table : String) : PolicyDraft where
  table := table
  template := none
  name := some name
  command := some .select
  role := none
  usingExpr := none
  checkExpr := none
  allow := some .alwaysTrue
  restrictive := false
  description := none

/-- One name on two tables, in two groups. -/
theorem sql_distinct_two_tables :
    let m : Manifest :=
      ⟨[⟨"g", none, [readerDraft "p" "t"]⟩, ⟨"h", none, [readerDraft "p" "u"]⟩]⟩
    ∃ sql, m.sql {} false = .ok sql ∧
      createdPolicies (sql ++ ";") = [("\"p\"", "\"t\""), ("\"p\"", "\"u\"")] := by
  intro m
  refine ⟨_, rfl, ?_⟩
  -- the two policies are told apart by the tables, though they share the name
  obtain ⟨groups, hrealize, -, hcreated, -⟩ :=
    sql_distinct_iff (show m.sql {} false = .ok _ from rfl)
  cases hrealize
  rw [hcreated (by decide)]
  decide +kernel

/-- A table with a plain name and with the same name in quotes: one policy is created twice. -/
theorem sql_repeats_policy :
    let m : Manifest := ⟨[⟨"g", none, [readerDraft "p" "t", readerDraft "p" "\"t\""]⟩]⟩
    ∃ sql, m.sql {} false = .ok sql ∧
      createdPolicies (sql ++ ";") = [("\"p\"", "\"t\""), ("\"p\"", "\"t\"")] ∧
      ¬ (createdPolicies (sql ++ ";")).Nodup := by
  intro m
  exact ⟨_, rfl, by decide +kernel, by decide +kernel⟩

end Manifest

end RowPolicy
