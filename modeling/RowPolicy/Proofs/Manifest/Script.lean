import RowPolicy.Proofs.Manifest.Raws

namespace RowPolicy

open Sql

/-!
# Rendered manifests are scripts

The text of a manifest, with a semicolon behind it, is a script whose statements are
known: those that enable row security, then for each policy its indexes, itself and its
comment.  No name and no text in the manifest adds a statement, removes one or changes
where one ends.

* `Policy.statements` — the statements of a policy with its extras;
* `Policy.parts_indexStatements` — the indexes of a policy, in front of anything;
* `Policy.runs_text`, `PolicyGroup.runs_text` — the texts of policies and groups;
* `Manifest.statements_sql` — the text of a manifest.
-/

namespace Policy

/-- The statements of a policy with its extras. -/
def statements (policy : Policy) (extras : Extras) : List String :=
  (if extras.indexes then Index.statements policy.table policy.indexColumns else []) ++
    policy.createStatement ::
      (if extras.comments then policy.description.map policy.commentStatement else none).toList

/-- Indexes stand on lines of their own in front of a text. -/
theorem parts_indexBlock {ss : List String} (h : ∀ s ∈ ss, IsStatement s) (rest : List Char) :
    parts ((indexBlock ss).toList ++ rest) = ss ++ parts rest := by
  unfold indexBlock
  split
  · rename_i hempty
    rw [List.isEmpty_iff.mp hempty]
    simp
  · rw [String.toList_append, List.append_assoc, parts_lines h]
    exact congrArg (ss ++ ·) (parts_newline rest)

/-- The indexes of a table stand in front of a text, each as a statement of its own. -/
theorem parts_indexStatements (table : String) (columns : List String) (rest : List Char) :
    parts ((indexBlock (Index.statements table columns)).toList ++ rest) =
      Index.statements table columns ++ parts rest := by
  refine parts_indexBlock (fun s hs => ?_) rest
  obtain ⟨column, -, rfl⟩ := List.mem_map.mp hs
  exact Index.statement_isStatement table column

/-- The text of a policy runs as its statements. -/
theorem runs_text {policy : Policy} (hclause : policy.HasClause)
    (hraws : ∀ s ∈ policy.raws, s = rawNow) (extras : Extras) :
    Runs (policy.text extras) (policy.statements extras) := by
  have hcreate := Runs.statement (createStatement_isStatement hclause hraws)
  -- the policy with its comment first; the indexes stand in front of both
  have hcomment :
      Runs (policy.createStatement ++ if extras.comments then policy.commentBlock else "")
      (policy.createStatement ::
        (if extras.comments then policy.description.map policy.commentStatement
          else none).toList) := by
    cases extras.comments with
    | false => simpa using hcreate
    | true =>
      unfold commentBlock
      cases policy.description with
      | none => simpa using hcreate
      | some text =>
        have hall := hcreate.append (.statement (commentStatement_isStatement policy text))
        rwa [String.append_assoc] at hall
  rw [text, String.append_assoc, statements]
  cases extras.indexes with
  | false => simpa using hcomment
  | true =>
    intro rest
    rw [if_pos rfl, if_pos rfl, String.toList_append, List.append_assoc, parts_indexStatements,
      hcomment, List.append_assoc]

end Policy

/-! ### Comment lines -/

/-- A character of what is joined stands in an item or between two. -/
theorem mem_joined {sep : String} {items : List String} {c : Char}
    (h : c ∈ (joined sep items).toList) : c ∈ sep.toList ∨ ∃ item ∈ items, c ∈ item.toList := by
  induction items with
  | nil => cases h
  | cons item items ih =>
    cases items with
    | nil => exact .inr ⟨item, List.mem_cons_self, h⟩
    | cons next items =>
      rw [joined_cons_cons, String.toList_append, String.toList_append, List.mem_append,
        List.mem_append] at h
      -- in the first item, between the items, or behind
      obtain (h | h) | h := h
      · exact .inr ⟨item, List.mem_cons_self, h⟩
      · exact .inl h
      · obtain hsep | ⟨other, hother, hc⟩ := ih h
        · exact .inl hsep
        · exact .inr ⟨other, List.mem_cons_of_mem _ hother, hc⟩

/-- The pieces between control characters hold none. -/
theorem isControl_of_mem_splitControl {s piece : List Char}
    (h : piece ∈ (splitControl s).1 :: (splitControl s).2) :
    ∀ c ∈ piece, Text.isControl c = false := by
  induction s generalizing piece with
  | nil =>
    rw [splitControl, List.mem_singleton] at h
    simp [h]
  | cons c s ih =>
    cases hc : Text.isControl c with
    | true =>
      simp only [splitControl, hc, if_true, List.mem_cons] at h
      -- a control character is dropped, and the piece in front of it ends
      obtain rfl | h := h
      · simp
      · exact ih (List.mem_cons.mpr h)
    | false =>
      simp only [splitControl, hc, Bool.false_eq_true, if_false, List.mem_cons] at h
      -- any other belongs to the first piece
      obtain rfl | h := h
      · rw [List.forall_mem_cons]
        exact ⟨hc, ih List.mem_cons_self⟩
      · exact ih (List.mem_cons_of_mem _ h)

/-- What ends a line is a control character. -/
theorem isControl_of_isLineEnd {c : Char} (h : isLineEnd c = true) : Text.isControl c = true := by
  rw [isLineEnd, Bool.or_eq_true, beq_iff_eq, beq_iff_eq] at h
  obtain rfl | rfl := h <;> decide

/-- A description without its control characters stays on its line. -/
theorem not_isLineEnd_controlFree (description : String) :
    ∀ c ∈ (joined " " (controlFree description)).toList, isLineEnd c = false := by
  intro c hc
  obtain hc | ⟨item, hitem, hc⟩ := mem_joined hc
  · rw [show " ".toList = [' '] from rfl, List.mem_singleton] at hc
    rw [hc]
    rfl
  · obtain ⟨piece, hpiece, rfl⟩ := List.mem_map.mp hitem
    rw [String.toList_ofList] at hc
    -- line ends are control characters, and none is left
    have hcontrol := isControl_of_mem_splitControl (List.mem_filter.mp hpiece).1 c hc
    rw [← Bool.not_eq_true]
    intro hend
    rw [isControl_of_isLineEnd hend] at hcontrol
    cases hcontrol

/-- A comment line in front of a text is dropped. -/
theorem runs_commentLine {a : String} {ss : List String} (description : String) (ha : Runs a ss) :
    Runs (commentLine description ++ a) ss := by
  have htext : ∀ c ∈ (" " ++ joined " " (controlFree description)).toList, isLineEnd c = false := by
    rw [String.toList_append, List.forall_mem_append]
    exact ⟨by simp [isLineEnd], not_isLineEnd_controlFree description⟩
  have hall := ha.behind_comment htext
  rwa [← String.append_assoc] at hall

/-! ### Groups and manifests -/

/-- What runs one by one runs as a list, text beside text. -/
theorem forall₂_runs {α : Type} {text : α → String} {ss : α → List String} {xs : List α}
    (h : ∀ x ∈ xs, Runs (text x) (ss x)) : List.Forall₂ Runs (xs.map text) (xs.map ss) := by
  rw [List.forall₂_map_left_iff, List.forall₂_map_right_iff, List.forall₂_same]
  exact h

/-- The text of a group runs as the statements of its policies, with a comment line or not. -/
theorem PolicyGroup.runs_text {group : PolicyGroup} (hne : group.policies ≠ [])
    (hclause : ∀ policy ∈ group.policies, policy.HasClause)
    (hraws : ∀ policy ∈ group.policies, ∀ s ∈ policy.raws, s = rawNow) (extras : Extras) :
    Runs (group.text extras) (group.policies.flatMap (·.statements extras)) := by
  have hpolicies := Runs.joined (by simpa using hne) (forall₂_runs fun policy hpolicy =>
    Policy.runs_text (hclause policy hpolicy) (hraws policy hpolicy) extras)
  rw [← List.flatMap_def] at hpolicies
  unfold PolicyGroup.text
  cases group.description with
  | none => exact hpolicies
  | some description => exact runs_commentLine description hpolicies

/-- The texts of the groups of a manifest that takes over no SQL run. -/
theorem Manifest.runs_groups {m : Manifest} (hraws : m.raws = []) {groups : List PolicyGroup}
    (hrealize : m.realize = .ok groups)
    (hclause : ∀ group ∈ groups, ∀ policy ∈ group.policies, policy.HasClause) (extras : Extras) :
    ∀ group ∈ groups, Runs (group.text extras) (group.policies.flatMap (·.statements extras)) := by
  intro group hgroup
  have hnone : Within [] m.raws := by
    rw [hraws]
    exact within_nil
  have hwithin := Manifest.raws_realize hnone hrealize
  obtain ⟨draft, -, hdraft⟩ := exists_of_mem_right (Manifest.realizes_of_ok hrealize).2 hgroup
  refine PolicyGroup.runs_text hdraft.ne_nil (hclause group hgroup) ?_ extras
  exact fun policy hpolicy s hs => by simpa using hwithin group hgroup policy hpolicy s hs

/-- A statement that enables row level security runs by itself. -/
theorem Manifest.runs_enabling (m : Manifest) : ∀ s ∈ m.enabling, Runs s [s] := by
  intro s hs
  obtain ⟨table, -, rfl⟩ := List.mem_map.mp hs
  exact .statement (Table.enableSecurity_isStatement table)

/-- **Statements of a manifest.** The text of a manifest that takes over no SQL, with a
    semicolon behind it, consists of one statement for each table if that is asked for,
    and of the statements of its policies, in order. -/
theorem Manifest.statements_sql {m : Manifest} (hraws : m.raws = []) {extras : Extras}
    {enable : Bool} {sql : String} (h : m.sql extras enable = .ok sql) :
    ∃ groups, m.realize = .ok groups ∧
      (∀ group ∈ groups, ∀ policy ∈ group.policies, policy.sql {} = .ok policy.createStatement) ∧
      Sql.statements (sql ++ ";") =
        (if enable then m.tables.map Table.enableSecurity else []) ++
          groups.flatMap fun group => group.policies.flatMap (·.statements extras) := by
  obtain ⟨groups, hrealize, hclause, rfl⟩ := Manifest.sql_eq_ok.mp h
  obtain ⟨hgroups, hrealizes⟩ := Manifest.realizes_of_ok hrealize
  -- there is a statement at all, so the last semicolon ends one
  have hne : groups ≠ [] := by
    rintro rfl
    exact hgroups (List.forall₂_nil_right_iff.mp hrealizes)
  have henabling : ∀ s ∈ (if enable then m.enabling else []), Runs s [s] := by
    cases enable with
    | true => exact m.runs_enabling
    | false => simp
  have hall := Runs.joined (by simp [hne])
    (List.rel_append (forall₂_runs henabling)
      (forall₂_runs (runs_groups hraws hrealize hclause extras)))
  rw [List.map_id', List.flatten_append, ← List.flatMap_def, ← List.flatMap_def,
    List.flatMap_singleton'] at hall
  refine ⟨groups, hrealize, ?_, hall.statements_eq⟩
  intro group hgroup policy hpolicy
  exact Policy.sql_eq_ok.mpr ⟨hclause group hgroup policy hpolicy, policy.text_default.symm⟩

/-- Semicolons, dashes, quotes and line breaks in a description, a table, a column and a
    comment. -/
theorem Manifest.statements_sql_injection :
    let m : Manifest := ⟨[⟨"g", some "a\nb; --", [{
      table := "t;", template := some (.publicAccess "c'--"), name := none, command := none,
      role := none, usingExpr := none, checkExpr := none, allow := none, restrictive := false,
      description := some "it's; --" }]⟩]⟩
    ∃ sql, m.sql { indexes := true, comments := true } true = .ok sql ∧
      Sql.statements (sql ++ ";") =
        ["ALTER TABLE \"t;\" ENABLE ROW LEVEL SECURITY",
          "CREATE INDEX IF NOT EXISTS idx_t__c____e1468b20 ON \"t;\" (\"c'--\")",
          "CREATE POLICY \"t;_public_read\" ON \"t;\" FOR SELECT USING (\"c'--\" = TRUE)",
          "COMMENT ON POLICY \"t;_public_read\" ON \"t;\" IS 'it''s; --'"] := by
  intro m
  refine ⟨_, rfl, ?_⟩
  -- no text is taken over, so the list of statements is the one promised
  obtain ⟨groups, hrealize, -, hstatements⟩ := statements_sql (m := m) (by decide) rfl
  cases hrealize
  rw [hstatements]
  decide +kernel

end RowPolicy
