import RowPolicy.Proofs.Manifest.Settling
import RowPolicy.Proofs.Manifest.Sql
import RowPolicy.Proofs.Manifest.WidenedDrafts

namespace RowPolicy

/-!
# Integers in the text of a manifest

A manifest can be read with all its integers kept.  What is read otherwise is this manifest
with floats in place of the integers beyond 64 bits; an integer that fits 64 bits only
without a sign is kept by the reader and refused behind it.

* `Manifest.ofTextExactly` — the manifest with all its integers;
* `PolicyDraft.ofReading_widen`, `Manifest.ofText_widen` — policies and manifests, read in both
  ways;
* `Manifest.integers_ofText` — what becomes of the integers in a text.
-/

open Json (IsWord Numeral)

/-! ### Policies, groups and manifests -/

namespace Template

/-- The fields of a template are words and texts, which stay. -/
theorem content_widen (f : Field) (j : Json) : Mirrors id (content f j) (content f j.widen) := by
  cases f with
  | command => exact Command.words.ofJson_widen j
  | _ => exact j.asText_widen

/-- A template holds no integers. -/
theorem ofReading_widen (r : Json.Reading) : Mirrors id (ofReading r) (ofReading r.widen) := by
  refine (kinds.ofReading_widen r).bind fun p => ?_
  refine (p.1.record.ofJson_widen false content_widen p.2).bind fun slots => ?_
  rw [Json.RecordType.Slots.map_id]
  exact mirrors_refl _

end Template

namespace PolicyDraft

/-- The content of a field, with its integers as they are read. -/
def widenContent : (f : Field) → Content f → Content f
  | .usingExpr, c => PredicateDraft.mapIntegers? OperandDraft.ofInteger c
  | .checkExpr, c => PredicateDraft.mapIntegers? OperandDraft.ofInteger c
  | .allow, c => PredicateDraft.mapIntegers? OperandDraft.ofInteger c
  | .table, c => c
  | .template, c => c
  | .name, c => c
  | .command, c => c
  | .role, c => c
  | .restrictive, c => c
  | .description, c => c

/-- The fields of a policy are read alike, its predicates with their integers replaced. -/
theorem content_widen (f : Field) (r : Json.Reading) :
    Mirrors (widenContent f) (content f r) (content f r.widen) := by
  have hpredicate : Mirrors (PredicateDraft.mapIntegers? OperandDraft.ofInteger)
      (r.asOption PredicateDraft.ofReading) (r.widen.asOption PredicateDraft.ofReading) := by
    rw [PredicateDraft.mapIntegersOpt_eq_map]
    exact Json.Reading.asOption_widen PredicateDraft.ofReading_widen r
  have htext := Json.Reading.asOption_widen_id Json.Reading.asText_widen r
  cases f with
  | table => exact r.asText_widen
  | template => exact Json.Reading.asOption_widen_id Template.ofReading_widen r
  | command => exact Json.Reading.asOption_widen_id Command.words.ofReading_widen r
  | restrictive => exact r.asBool_widen
  | name | role | description => exact htext
  | usingExpr | checkExpr | allow => exact hpredicate

/-- Reading a policy commutes with widening. -/
theorem ofReading_widen (r : Json.Reading) :
    Mirrors (mapIntegers OperandDraft.ofInteger) (ofReading r) (ofReading r.widen) := by
  -- the fields that may be left out have no integers when they are
  have habsent (f : Field) : (record.absent f).map (widenContent f) = record.absent f := by
    cases f <;> rfl
  have hget := record.mirrors_get habsent
  exact (record.ofReading_widen content_widen r).bind fun slots =>
    (hget slots .table).bind fun table => (hget slots .template).bind fun template =>
      (hget slots .name).bind fun name => (hget slots .command).bind fun command =>
        (hget slots .role).bind fun role => (hget slots .usingExpr).bind fun found =>
          (hget slots .checkExpr).bind fun written => (hget slots .allow).bind fun allow =>
            (hget slots .restrictive).bind fun restrictive =>
              (hget slots .description).bind fun description =>
                mirrors_ok (PolicyDraft.mk table template name command role found written allow
                  restrictive description)

end PolicyDraft

namespace GroupDraft

/-- The content of a field, with its integers as they are read. -/
def widenContent : (f : Field) → Content f → Content f
  | .policies, c => c.map (·.mapIntegers OperandDraft.ofInteger)
  | .name, c => c
  | .description, c => c

/-- The fields of a group are read alike, its policies with their integers replaced. -/
theorem content_widen (f : Field) (r : Json.Reading) :
    Mirrors (widenContent f) (content f r) (content f r.widen) := by
  cases f with
  | name => exact r.asText_widen
  | description => exact Json.Reading.asOption_widen_id Json.Reading.asText_widen r
  | policies => exact Json.Reading.asList_widen PolicyDraft.ofReading_widen r

/-- Reading a group commutes with widening. -/
theorem ofReading_widen (r : Json.Reading) :
    Mirrors (mapIntegers OperandDraft.ofInteger) (ofReading r) (ofReading r.widen) := by
  have habsent (f : Field) : (record.absent f).map (widenContent f) = record.absent f := by
    cases f <;> rfl
  have hget := record.mirrors_get habsent
  exact (record.ofReading_widen content_widen r).bind fun slots =>
    (hget slots .name).bind fun name => (hget slots .description).bind fun description =>
      (hget slots .policies).bind fun policies =>
        mirrors_ok (GroupDraft.mk name description policies)

end GroupDraft

namespace Manifest

/-- Reading a manifest commutes with widening. -/
theorem ofReading_widen (r : Json.Reading) :
    Mirrors (mapIntegers OperandDraft.ofInteger) (ofReading r) (ofReading r.widen) := by
  have hgroups (_ : Unit) (r : Json.Reading) :=
    Json.Reading.asList_widen GroupDraft.ofReading_widen r
  exact (record.ofReading_widen hgroups r).bind fun slots =>
    (record.mirrors_get (fun _ => rfl) slots ()).bind fun groups => mirrors_ok (Manifest.mk groups)

/-- The manifest that a text describes, with all its integers. -/
def ofTextExactly (text : String) : Except Json.Fault Manifest :=
  (Json.Document.ofTextWith Numeral.exactValue? text).decode ofReading

/-- **One manifest, read in two ways.** -/
theorem ofText_widen (text : String) :
    Mirrors (mapIntegers OperandDraft.ofInteger) (ofTextExactly text) (ofText text) := by
  rw [ofText, ofTextExactly, Json.Document.ofText_widen]
  exact Json.Document.decode_widen ofReading_widen _

end Manifest

/-! ### Integers that are refused -/

/-- What an integer is read as, with zero in place of those that are refused. -/
def OperandDraft.settled (n : Int) : OperandDraft :=
  if OnlyUnsigned n then .integer 0 else ofInteger n

/-- An integer read as it is widened is refused for its size, or settled. -/
theorem OperandDraft.settles_ofInteger : SettlesEach ofInteger settled := by
  intro n
  unfold settled
  split
  -- beyond 64 bits with a sign, so it is refused as an integer
  · rename_i hlarge
    refine .inl ⟨n, List.mem_singleton_self n, hlarge, ?_⟩
    rw [ofInteger, if_pos hlarge.1, realize, realizeInteger]
    exact if_neg hlarge.2
  · rename_i hsmall
    refine .inr ⟨rfl, fun _ _ => ?_⟩
    rwa [List.forall_mem_singleton]

namespace Manifest

/-- **Integers in a text.** The manifest that a text describes is the one with all the
    integers that are written in it, except that those beyond 64 bits have become floats;
    it is that manifest if and only if there are none of these.  If an integer fits 64 bits
    only without a sign, then the manifest is refused for such an integer, unless it is
    refused in the same way with zero in place of them. -/
theorem integers_ofText {text : String} {m : Manifest} (h : ofText text = .ok m) :
    ∃ whole, ofTextExactly text = .ok whole ∧ m = whole.mapIntegers OperandDraft.ofInteger ∧
      (m = whole ↔ ∀ n ∈ whole.integers, IsWord n) ∧
      ((∃ n ∈ whole.integers, OnlyUnsigned n) → ∃ r, m.realize = .error r ∧
        (∀ extras enable, m.sql extras enable = .error r) ∧
        ((∃ n ∈ whole.integers, OnlyUnsigned n ∧ r = .integerRange n) ∨
          (whole.mapIntegers OperandDraft.settled).realize = .error r)) := by
  obtain ⟨whole, hwhole, rfl⟩ := (ofText_widen text).eq_ok_iff.mp h
  refine ⟨whole, hwhole, rfl, ?_, ?_⟩
  -- an integer stays exactly if it fits a word
  · have hkept (n : Int) : OperandDraft.ofInteger n = .integer n ↔ IsWord n := by
      unfold OperandDraft.ofInteger
      split <;> simp_all
    simp only [mapIntegers_eq_self_iff, hkept]
  -- settling the whole manifest finds the integer, unless something else is refused first
  · rintro ⟨n, hn, hlarge⟩
    obtain ⟨k, hk, hklarge, hr⟩ | ⟨hsame, hnone⟩ :=
      settles_realize OperandDraft.settles_ofInteger whole
    · exact ⟨_, hr, sql_eq_error hr, .inl ⟨k, hk, hklarge, rfl⟩⟩
    · -- success would mean that there is no such integer
      cases hr : (whole.mapIntegers OperandDraft.ofInteger).realize with
      | ok groups => exact absurd hlarge (hnone groups hr n hn)
      | error r => exact ⟨r, rfl, sql_eq_error hr, .inr (hsame ▸ hr)⟩

/-- An integer without room for a sign, in an array among the values of a membership. -/
theorem integers_ofText_unsigned :
    let text := "[[[\"g\", null, [[\"t\", null, \"p\", \"SELECT\", null, " ++
      "[\"in\", \"a\", [1, [9223372036854775808]]]]]]]]"
    ∃ m, ofText text = .ok m ∧ m.realize = .error (.integerRange 9223372036854775808) := by
  intro text
  -- the text is evaluated for what the theorem says of it
  have hread : (ofText text).toOption.isSome = true := by decide +kernel
  have hintegers : (ofTextExactly text).toOption.map integers = some [1, 9223372036854775808] := by
    decide +kernel
  have hsettled : ((ofTextExactly text).toOption.map fun m =>
      (m.mapIntegers OperandDraft.settled).realize.toOption.isSome) = some true := by
    decide +kernel
  cases hm : ofText text with
  | error fault => simp [hm, Except.toOption] at hread
  | ok m =>
    obtain ⟨whole, hwhole, -, -, hrefused⟩ := integers_ofText hm
    have hwholeIntegers : whole.integers = [1, 9223372036854775808] := by
      simpa [hwhole, Except.toOption] using hintegers
    rw [hwholeIntegers] at hrefused
    obtain ⟨r, hr, -, ⟨n, hn, hlarge, rfl⟩ | hfault⟩ :=
      hrefused ⟨9223372036854775808, by simp, by decide⟩
    -- the refusal is for this integer, as the other one is small
    · obtain rfl | rfl : n = 1 ∨ n = 9223372036854775808 := by simpa using hn
      · exact absurd hlarge (by decide)
      · exact ⟨m, rfl, hr⟩
    · simp [hwhole, hfault, Except.toOption] at hsettled

/-- The least positive integer beyond 64 bits becomes another number, and no error. -/
theorem integer_beyond_64_bits_widened :
    let text := "\x7b\"groups\":[\x7b\"name\":\"g\",\"policies\":[\x7b\"table\":\"t\"," ++
      "\"name\":\"p\",\"operation\":\"SELECT\",\"allow\":\x7b\"kind\":\"eq\"," ++
      "\"column\":\"a\",\"value\":18446744073709551616\x7d\x7d]\x7d]\x7d"
    (ofTextExactly text).toOption.map integers = some [18446744073709551616] ∧
      ¬ IsInt64 18446744073709551616 ∧
      (sqlOfText text {} false).toOption =
        some "CREATE POLICY \"p\" ON \"t\" FOR SELECT USING (\"a\" = 18446744073709552000)" := by
  decide +kernel

end Manifest

end RowPolicy
