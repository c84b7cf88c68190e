import RowPolicy.Proofs.Predicate.Expr
import RowPolicy.Proofs.Sql.Unambiguous

namespace RowPolicy

open Sql

/-!
# Expressions that keep the grammar

The expression of a predicate may break the grammar in two ways only: by a name that SQL does
not accept where it stands, and by a comparison with what binds no tighter than a comparison.
Each form that predicates are written in is one of these or keeps the grammar:

* `Sql.Expr.Named`, `Sql.Expr.Tight` — the two conditions;
* `Sql.Expr.Sound` — an expression that keeps the grammar if it keeps these two;
* `Sql.Expr.everywhere_fits_iff` — a sound one keeps it exactly if it keeps them throughout;
* `Usable` — what holds of the expressions that predicates are made of;
* `usable_compare`, `usable_list`, `usable_helper`, ... — the forms without recursion, from their
  parts.
-/

namespace Sql.Expr

/-- The names of an expression are accepted where they stand. -/
def Named : Expr → Prop
  | column path => IsColumn path
  | call function args => IsPath function ∧ (args = [all] ∨ all ∉ args)
  | contains l _ | .matches _ l _ | inList l _ | inQuery l _ | compare _ l _ | null _ l => l ≠ all
  | table t => t.Fits
  | join _ l r _ => l.Fits ∧ r.Fits
  | _ => True

/-- What stands on the right of a comparison binds tighter than a comparison. -/
def Tight : Expr → Prop
  | compare _ _ r => 5 ≤ r.level
  | _ => True

/-- An expression that keeps the grammar just if its names are accepted and what it
    compares with is tight. -/
def Sound (e : Expr) : Prop := e.Fits ↔ e.Named ∧ e.Tight

/-- What holds throughout an expression holds in a weaker form. -/
theorem Everywhere.mono {P Q : Expr → Prop} {e : Expr} (h : e.Everywhere P)
    (hPQ : ∀ x, P x → Q x) : e.Everywhere Q := by
  induction h with
  | intro hp _ ih => exact .intro (hPQ _ hp) ih

/-- Two properties hold throughout an expression exactly if each of them does. -/
theorem everywhere_and {P Q : Expr → Prop} {e : Expr} :
    e.Everywhere (fun x => P x ∧ Q x) ↔ e.Everywhere P ∧ e.Everywhere Q := by
  constructor
  · exact fun h => ⟨h.mono fun _ hx => hx.1, h.mono fun _ hx => hx.2⟩
  · rintro ⟨hp, hq⟩
    induction hp with
    | intro hpe _ ih => exact .intro ⟨hpe, hq.here⟩ fun c hc => ih c hc (hq.child hc)

/-- Sound expressions keep the grammar under the two conditions. -/
theorem everywhere_fits_iff {e : Expr} (h : e.Everywhere Sound) :
    e.Everywhere Fits ↔ e.Everywhere Named ∧ e.Everywhere Tight := by
  rw [← everywhere_and]
  constructor
  · exact fun hfits => (everywhere_and.mpr ⟨h, hfits⟩).mono fun x hx => hx.1.mp hx.2
  · exact fun hboth => (everywhere_and.mpr ⟨h, hboth⟩).mono fun x hx => hx.1.mpr hx.2

end Sql.Expr

open Sql.Expr (Binds Everywhere Fits IsDigits IsQuery IsSource Named Sound Tight all children
  constants level memberLevel)

/-- A column binds as tight as anything. -/
theorem level_columnExpr (path : List Name) : (columnExpr path).level = 7 := by
  unfold columnExpr
  split <;> rfl

/-- A column is an operand of any operator, unless it stands for all columns. -/
theorem binds_columnExpr (path : List Name) {n : Nat} (hn : n ≤ 7) :
    (columnExpr path).Binds n ↔ columnExpr path ≠ all := by
  simp [Binds, level_columnExpr, hn]

/-- A reference that names a column stands for no more than that. -/
theorem columnExpr_of_isColumn {path : List Name} (h : IsColumn path) :
    columnExpr path = .column path := by
  rw [columnExpr, if_neg]
  rintro rfl
  obtain h | ⟨table, htable, heq⟩ := h
  · exact absurd h.1 (by decide)
  · rw [List.eq_nil_of_length_eq_zero (l := table) (by simpa using congrArg List.length heq)] at htable
    exact htable

/-- A reference of one segment names a column, unless it is empty. -/
theorem isColumn_quoted {s : String} (h : quotedPath s = [.quoted s]) (hne : s ≠ "") :
    IsColumn (quotedPath s) := by
  rw [h]
  exact .inl ⟨by simpa [Name.stands] using hne, by simp⟩

/-- An expression with no other in it is sound throughout if it is sound. -/
theorem sound_leaf {e : Expr} (hchildren : e.children = []) (h : e.Sound) : e.Everywhere Sound :=
  .intro h (by simp [hchildren])

/-- A column is sound, and so is the one that stands for all. -/
theorem sound_columnExpr (path : List Name) : (columnExpr path).Everywhere Sound := by
  unfold columnExpr
  split
  · exact sound_leaf rfl (by simp [Sound, Fits, Named, Tight])
  · exact sound_leaf rfl (by simp [Sound, Fits, Named, Tight])

/-- What holds of the expressions that predicates are made of: they are sound everywhere,
    and values that may be members of any group. -/
def Usable (e : Expr) : Prop := e.Everywhere Sound ∧ e.Binds 3

/-- A usable expression is an operand of every operator up to a comparison. -/
theorem Usable.binds {e : Expr} (h : Usable e) {n : Nat} (hn : n ≤ 3) : e.Binds n :=
  ⟨Nat.le_trans hn h.2.1, h.2.2⟩

/-- The call for the user is usable. -/
theorem usable_user : Usable userExpr := by
  refine ⟨sound_leaf rfl ?_, by simp [Binds, userExpr, level]⟩
  have hpath : IsPath [.bare "auth", .bare "uid"] := by
    unfold IsPath
    decide
  simp [Sound, Fits, Named, Tight, userExpr, hpath]

/-- A text is usable. -/
theorem usable_text (s : String) : Usable (.text s) :=
  ⟨sound_leaf rfl (by simp [Sound, Fits, Named, Tight]), by simp [Binds, level]⟩

/-- A constant is usable. -/
theorem usable_constant {w : String} (h : w ∈ constants) : Usable (.constant w) :=
  ⟨sound_leaf rfl (by simp [Sound, Fits, Named, Tight, h]), by simp [Binds, level]⟩

/-- A number written in digits is usable. -/
theorem usable_number {negative : Bool} {whole : String} {fraction : Option String}
    (hwhole : IsDigits whole) (hfraction : ∀ f ∈ fraction, IsDigits f) :
    Usable (.number negative whole fraction) := by
  refine ⟨sound_leaf rfl ?_, ?_⟩
  · simpa [Sound, Fits, Named, Tight, hwhole] using hfraction
  · cases negative <;> simp [Binds, level]

/-- A cast to a type with a plain name is usable. -/
theorem usable_cast {e : Expr} {type : String} (h : Usable e) (hbinds : e.Binds 7)
    (htype : (Name.bare type).stands false) : Usable (.cast e type) := by
  refine ⟨.intro (by simp [Sound, Fits, Named, Tight, hbinds, htype]) ?_, by simp [Binds, level]⟩
  simpa [children] using h.1

/-- A call of sound arguments is usable, whatever function it names. -/
theorem usable_call (function : List Name) {args : List Expr}
    (h : ∀ e ∈ args, e.Everywhere Sound ∧ 1 ≤ e.level) : Usable (.call function args) := by
  refine ⟨.intro ?_ fun c hc => (h c hc).1, by simp [Binds, level]⟩
  -- arguments are values, and the only one that is no operand is the star
  have hargs : (∀ a ∈ args, a.Binds 1) ↔ all ∉ args := by
    constructor
    · exact fun hbinds hall => (hbinds all hall).2 rfl
    · rintro hall a ha
      refine ⟨(h a ha).2, ?_⟩
      rintro rfl
      exact hall ha
  simp [Sound, Fits, Named, Tight, hargs]

/-- A context value is usable. -/
theorem usable_context (c : Context) : Usable c.expr := by
  cases c with
  | authUid => exact usable_user
  | currentUser => exact usable_constant (by decide)
  | setting key cast =>
    refine usable_cast (usable_call _ ?_) (by simp [Binds, level]) (by cases cast <;> decide)
    simp only [List.forall_mem_cons, List.not_mem_nil, false_implies, implies_true, and_true]
    exact ⟨⟨(usable_text key).1, by simp [level]⟩, (usable_constant (by decide)).1, by simp [level]⟩

/-- An array of usable items is usable. -/
theorem usable_array {items : List Expr} (h : ∀ e ∈ items, Usable e) : Usable (.array items) := by
  refine ⟨.intro ?_ fun c hc => (h c hc).1, by simp [Binds, level]⟩
  have hbinds : ∀ e ∈ items, e.Binds 1 := fun e he => (h e he).binds (by decide)
  simpa [Sound, Fits, Named, Tight] using hbinds

/-- A query of sound parts is sound. -/
theorem sound_query {columns : List Expr} {source : Expr} {filter : Option Expr}
    (hne : columns ≠ []) (hcolumns : ∀ e ∈ columns, e.Everywhere Sound ∧ 1 ≤ e.level)
    (hsource : source.Everywhere Sound ∧ source.IsSource)
    (hfilter : ∀ e ∈ filter, e.Everywhere Sound ∧ e.Binds 1) :
    (Expr.select columns source filter).Everywhere Sound := by
  refine .intro ?_ ?_
  -- the clauses are delimited by keywords, so their conditions may bind as loosely as they like
  · have hlevels : ∀ e ∈ columns, 1 ≤ e.level := fun e he => (hcolumns e he).2
    have hbinds : ∀ e ∈ filter, e.Binds 1 := fun e he => (hfilter e he).2
    simp only [Sound, Fits, Named, Tight, and_self, iff_true]
    exact ⟨hne, hlevels, hsource.2, hbinds⟩
  · intro c hc
    rw [children, List.mem_cons, List.mem_append, Option.mem_toList] at hc
    obtain rfl | hc | hc := hc
    · exact hsource.1
    · exact (hfilter c hc).1
    · exact (hcolumns c hc).1

/-! ### Operators on a column -/

/-- A comparison with a usable operand is usable, if not always read back. -/
theorem usable_compare (op : Comparison) (path : List Name) {r : Expr} (h : Usable r) :
    Usable (.compare op (columnExpr path) r) := by
  refine ⟨.intro ?_ ?_, by simp [Binds, level]⟩
  -- the right side is where the grammar asks for more than a value
  · have hr : r.Binds 5 ↔ 5 ≤ r.level := by simp [Binds, h.2.2]
    simp [Sound, Fits, Named, Tight, binds_columnExpr, hr]
  · simpa [children] using ⟨sound_columnExpr path, h.1⟩

/-- A test of a column for null is usable. -/
theorem usable_null (test : NullTest) (path : List Name) :
    Usable (.null test (columnExpr path)) := by
  refine ⟨.intro ?_ ?_, by simp [Binds, level]⟩
  · simp [Sound, Fits, Named, Tight, binds_columnExpr]
  · simpa [children] using sound_columnExpr path

/-- A match against a pattern is usable. -/
theorem usable_matches (op : Matching) (path : List Name) (pattern : String) :
    Usable (.matches op (columnExpr path) (.text pattern)) := by
  refine ⟨.intro ?_ ?_, by simp [Binds, level]⟩
  · have htext : (Expr.text pattern).Binds 6 := by simp [Binds, level]
    simp [Sound, Fits, Named, Tight, binds_columnExpr, htext]
  · simpa [children] using ⟨sound_columnExpr path, (usable_text pattern).1⟩

/-- A test for containment is usable if its operand binds tighter than the operator. -/
theorem usable_contains (path : List Name) {r : Expr} (h : r.Everywhere Sound)
    (hbinds : r.Binds 6) : Usable (.contains (columnExpr path) r) := by
  refine ⟨.intro ?_ ?_, by simp [Binds, level]⟩
  · simp [Sound, Fits, Named, Tight, binds_columnExpr, hbinds]
  · simpa [children] using ⟨sound_columnExpr path, h⟩

/-- A membership in a sound query is usable. -/
theorem usable_inQuery (path : List Name) {query : Expr} (h : query.Everywhere Sound)
    (hquery : query.IsQuery) : Usable (.inQuery (columnExpr path) query) := by
  refine ⟨.intro ?_ ?_, by simp [Binds, level]⟩
  · simp [Sound, Fits, Named, Tight, binds_columnExpr, hquery]
  · simpa [children] using ⟨sound_columnExpr path, h⟩

/-- A membership in a list of usable items is usable. -/
theorem usable_inList (path : List Name) {items : List Expr} (hne : items ≠ [])
    (h : ∀ e ∈ items, Usable e) : Usable (.inList (columnExpr path) items) := by
  refine ⟨.intro ?_ ?_, by simp [Binds, level]⟩
  · have hbinds : ∀ e ∈ items, e.Binds 1 := fun e he => (h e he).binds (by decide)
    simp only [Sound, Fits, Named, Tight, binds_columnExpr path (show 6 ≤ 7 by decide), and_true]
    exact and_iff_left ⟨hne, hbinds⟩
  · simpa [children] using ⟨sound_columnExpr path, fun e he => (h e he).1⟩

/-! ### Forms without recursion -/

/-- A membership in a list of usable items is usable in either form, and so is one in an empty
    list. -/
theorem usable_list (column : String) (op : Membership) {es : List Expr}
    (h : ∀ e ∈ es, Usable e) : Usable (op.listExpr column es) := by
  cases es with
  | nil =>
    -- over an empty list the membership is a constant, or compares with an empty array in quotes
    cases op with
    | inside => exact usable_constant (by decide)
    | contains =>
      exact usable_contains _ (usable_text "\x7b\x7d").1 (by simp [Binds, level])
  | cons e es =>
    cases op with
    | inside => exact usable_inList _ (by simp) h
    | contains => exact usable_contains _ (usable_array h).1 (by simp [Binds, level])

/-- A membership in a sound query is usable in either form. -/
theorem usable_query (column : String) (op : Membership) {query : Expr}
    (h : query.Everywhere Sound) (hquery : query.IsQuery) :
    Usable (op.queryExpr column query) := by
  cases op with
  | inside => exact usable_inQuery _ h hquery
  | contains =>
    refine usable_contains _ (.intro ?_ ?_) (by simp [Binds, level])
    · simp [Sound, Fits, Named, Tight, hquery]
    · simpa [children] using h

/-- A chain of two usable members or more is sound. -/
theorem sound_chain (op : Connective) {es : List Expr} (hlength : 2 ≤ es.length)
    (h : ∀ e ∈ es, Usable e) : (Expr.chain op es).Everywhere Sound := by
  refine .intro ?_ fun c hc => (h c hc).1
  have hbinds : ∀ e ∈ es, e.Binds (memberLevel op) := fun e he =>
    (h e he).binds (by cases op <;> decide)
  simp only [Sound, Fits, Named, Tight, and_self, iff_true]
  exact ⟨hlength, hbinds⟩

/-- A group of usable members is usable, with its parentheses. -/
theorem usable_group (op : Connective) {es : List Expr} (h : ∀ e ∈ es, Usable e) :
    Usable (op.groupExpr es) := by
  have hparen {e : Expr} (he : e.Everywhere Sound) (hbinds : e.Binds 1) : Usable (.paren e) := by
    refine ⟨.intro ?_ ?_, by simp [Binds, level]⟩
    · simp [Sound, Fits, Named, Tight, hbinds]
    · simpa [children] using he
  rcases es with _ | ⟨a, _ | ⟨b, rest⟩⟩
  · cases op <;> exact usable_constant (by decide)
  · have ha := h a List.mem_cons_self
    -- one member stands in parentheses without a connective
    cases op <;> exact hparen ha.1 (ha.binds (by decide))
  · have hchain := sound_chain op (by simp) h
    cases op <;> exact hparen hchain (by simp [Binds, level])

/-- A table is sound, with an alias or without. -/
theorem sound_table (table : String) (aliasName : Option String) :
    (Expr.table (tableExpr table aliasName)).Everywhere Sound :=
  sound_leaf rfl (by simp [Sound, Fits, Named, Tight])

/-- The columns of a query are sound, and there is one at least. -/
theorem sound_columns (columns : List String) :
    columnExprs columns ≠ [] ∧ ∀ e ∈ columnExprs columns, e.Everywhere Sound ∧ 1 ≤ e.level := by
  have hcolumn (c : String) : (columnExpr (escapedPath c)).Everywhere Sound ∧
      1 ≤ (columnExpr (escapedPath c)).level :=
    ⟨sound_columnExpr _, by simp [level_columnExpr]⟩
  unfold columnExprs
  cases columns with
  | nil =>
    refine ⟨by simp, ?_⟩
    simp only [List.isEmpty_nil, if_true, List.forall_mem_singleton]
    exact ⟨sound_leaf rfl (by simp [Sound, Fits, Named, Tight]), by simp [level]⟩
  | cons c rest =>
    refine ⟨by simp, fun e he => ?_⟩
    simp only [List.isEmpty_cons, Bool.false_eq_true, if_false, List.mem_map] at he
    obtain ⟨d, -, rfl⟩ := he
    exact hcolumn d

/-- The test for a role is usable. -/
theorem usable_role (table role : String) : Usable (Helper.roleExpr table role) := by
  -- the two conditions on the row, by columns without quotes
  have huser : Usable (.compare .eq (.column [.bare "user_id"]) userExpr) :=
    usable_compare .eq [.bare "user_id"] usable_user
  have hrole : Usable (.compare .eq (.column [.bare "role"]) (.text role)) :=
    usable_compare .eq [.bare "role"] (usable_text role)
  refine ⟨.intro (by simp [Helper.roleExpr, Sound, Fits, Named, Tight, IsQuery]) ?_, by
    simp [Binds, level, Helper.roleExpr]⟩
  rw [Helper.roleExpr, children, List.forall_mem_singleton]
  refine sound_query (by simp) ?_ ⟨sound_table table none, trivial⟩ ?_
  · have hone : Usable (.number false "1" none) :=
      usable_number (isDigits_toDigits 1) (by simp)
    rw [List.forall_mem_singleton]
    exact ⟨hone.1, by simp [level]⟩
  · rintro e ⟨⟩
    refine ⟨sound_chain .and (by simp) ?_, by simp [Binds, level]⟩
    simp only [List.forall_mem_cons, List.not_mem_nil, false_implies, implies_true, and_true]
    exact ⟨huser, hrole⟩

/-- The test for a member is usable. -/
theorem usable_member (table foreignKey localKey : String) :
    Usable (Helper.memberExpr table foreignKey localKey) := by
  refine usable_inQuery _ (sound_query (by simp) ?_ ⟨sound_table table none, trivial⟩ ?_) trivial
  · rw [List.forall_mem_singleton]
    exact ⟨sound_columnExpr _, by simp [level_columnExpr]⟩
  · rintro e ⟨⟩
    have h := usable_compare .eq (quotedPath Helper.userColumn) usable_user
    exact ⟨h.1, h.binds (by decide)⟩

/-- A helper with usable arguments is usable. -/
theorem usable_helper (name : String) (params : List (String × Operand)) {es : List Expr}
    (h : ∀ e ∈ es, Usable e) : Usable (Helper.expr name params es) := by
  rw [Helper.expr]
  obtain ⟨-, hexpr⟩ | ⟨-, -, hexpr⟩ | ⟨table, role, -, -, hexpr⟩ |
    ⟨table, foreignKey, localKey, -, -, -, hexpr⟩ := Helper.known_cases name params
  -- a helper that is not known is a call, whose arguments stand between commas
  · rw [hexpr]
    exact usable_call _ fun e he => ⟨(h e he).1, ((h e he).binds (by decide)).1⟩
  · rw [hexpr]
    exact usable_constant (by decide)
  · rw [hexpr]
    exact usable_role table role
  · rw [hexpr]
    exact usable_member table foreignKey localKey

/-- A float is usable, in digits or in quotes. -/
theorem usable_float (x : Float) : Usable (floatExpr x) := by
  unfold floatExpr
  split
  · exact usable_text _
  split
  · exact usable_text _
  · exact usable_number (isDigits_digitGroups _).1 (isDigits_digitGroups _).2

end RowPolicy
