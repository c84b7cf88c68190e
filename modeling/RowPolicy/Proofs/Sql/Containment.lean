import RowPolicy.Proofs.Sql.Token

namespace RowPolicy.Sql

/-!
# Text with tokens is contained

The lexer and the scan for quotes read the same text side by side: where the lexer has
tokens to show, the scan stands where the lexer stands.

* `LexState.place`, `LexState.last` — what the scan knows of the lexer's state;
* `step_tracks`, `run_tracks` — one character and a whole text, read by both;
* `contained_of_tokens` — a text whose tokens have nested brackets is contained.
-/

/-- The bracket that a token is. -/
def Token.edge? : Token → Option Edge
  | atom _ => none
  | edge e => some e

/-- The brackets among some tokens. -/
def tokenEdges (ts : List Token) : List Edge := ts.filterMap Token.edge?

namespace LexState

/-- Where the scan for quotes stands in a state of the lexer. -/
def place : LexState → Place
  | quoted mark _ => .inside mark
  | _ => .outside

/-- Quotes are opened and closed by marks alone. -/
def Marked : LexState → Prop
  | quoted mark _ | closed mark _ => isMark mark = true
  | _ => True

/-- The last character of an operator that is not complete, as the scan shows it. -/
def last : LexState → List (Option Char)
  | op s => [s.getLast?]
  | _ => []

/-- At the end of a text no bracket is left over, and no quotes are open. -/
theorem tokenEdges_finish {st : LexState} {ts : List Token} (h : st.finish = some ts) :
    tokenEdges ts = [] ∧ st.place = .outside := by
  cases st with
  | start | word | op =>
    cases h
    exact ⟨rfl, rfl⟩
  | quoted => cases h
  | closed mark s =>
    -- a name or a text is complete once its mark is closed
    refine ⟨?_, rfl⟩
    rw [finish] at h
    split at h
    · cases h
      rfl
    · split at h
      · cases h
        rfl
      · cases h

end LexState

/-- What the lexer and the scan have in common behind a character: the quotes they are
    in, the brackets they have met, and that the character is of some use. -/
structure Tracks (place : Place) (c : Char) (ts : List Token) (st : LexState) : Prop where
  marked : st.Marked
  place_eq : st.place = place.next c
  edges_eq : tokenEdges ts = ((place.shown c).bind edge?).toList
  useful : place.shown c ≠ some ';' ∧ place.shown c ≠ some '$'
  /-- An operator character stays in sight of the next character. -/
  last_eq : isOpChar c = true → place.shown c = some c → st.last = [some c]

/-- White space and the characters of words and operators are plain. -/
theorem plain_of_class {c : Char} (h : isSpace c = true ∨ isWordChar c = true ∨ isOpChar c = true) :
    isMark c = false ∧ edge? c = none ∧ c ≠ ';' ∧ c ≠ '$' := by
  have hothers : "'\"()[];$".toList.all
      fun d => !isSpace d && !isWordChar d && !isOpChar d := by decide
  have hc : c ∉ "'\"()[];$".toList := by
    intro hmem
    have hd := List.all_eq_true.mp hothers c hmem
    simp only [Bool.and_eq_true, Bool.not_eq_true'] at hd
    simp [hd] at h
  simp at hc
  simp [isMark, edge?, hc]

/-- Outside quotes, every character but a mark is shown. -/
theorem shown_outside {c : Char} (h : isMark c = false) : Place.outside.shown c = some c := by
  simp [Place.shown, h]

/-- The lexer and the scan agree on a plain character that begins a token. -/
theorem tracks_plain {c : Char} {st : LexState}
    (h : isSpace c = true ∨ isWordChar c = true ∨ isOpChar c = true) (hmarked : st.Marked)
    (hplace : st.place = .outside) (hlast : isOpChar c = true → st.last = [some c]) :
    Tracks .outside c [] st := by
  obtain ⟨hmark, hedge, hsemicolon, hdollar⟩ := plain_of_class h
  have hshown := shown_outside hmark
  refine ⟨hmarked, ?_, ?_, ?_, fun hop _ => hlast hop⟩
  · simp [hplace, Place.next, hmark]
  · simp [hshown, hedge, tokenEdges]
  · simp [hshown, hsemicolon, hdollar]

/-- Neither a space nor a character of words belongs to an operator. -/
theorem not_isOpChar {c : Char} (h : isSpace c = true ∨ isWordChar c = true) :
    isOpChar c = false := by
  have hops : "+-*/<>=~!@#%^&|?:".toList.all fun d => !isSpace d && !isWordChar d := by decide
  rw [← Bool.not_eq_true]
  intro hop
  have hc := List.all_eq_true.mp hops c (List.contains_iff_mem.mp hop)
  simp only [Bool.and_eq_true, Bool.not_eq_true'] at hc
  simp [hc] at h

/-- The lexer and the scan agree on the character that begins a token. -/
theorem begin_tracks {dotted : Bool} {c : Char} {ts : List Token} {st : LexState}
    (h : LexState.begin dotted c = some (ts, st)) : Tracks .outside c ts st := by
  unfold LexState.begin at h
  -- the classes of characters, in the order in which the lexer asks for them
  split at h
  · rename_i hspace
    cases h
    exact tracks_plain (.inl hspace) trivial rfl fun hop => by
      simp [not_isOpChar (.inl hspace)] at hop
  split at h
  · rename_i hword
    cases h
    exact tracks_plain (.inr (.inl hword)) trivial rfl fun hop => by
      simp [not_isOpChar (.inr hword)] at hop
  split at h
  · rename_i hop
    cases h
    exact tracks_plain (.inr (.inr hop)) trivial rfl fun _ => rfl
  split at h
  · rename_i hmark
    cases h
    have hshown : Place.outside.shown c = none := by simp [Place.shown, hmark]
    refine ⟨hmark, ?_, ?_, ?_, ?_⟩
    · simp [LexState.place, Place.next, hmark]
    · simp [hshown, tokenEdges]
    · simp [hshown]
    · simp [hshown]
  · rename_i hop hmark
    have hshown := shown_outside (Bool.not_eq_true _ ▸ hmark)
    obtain ⟨t, ht, heq⟩ := Option.map_eq_some_iff.mp h
    cases heq
    have huseful : c ≠ ';' ∧ c ≠ '$' := by
      constructor
      · rintro rfl
        rw [show punctuation? ';' = none by decide] at ht
        cases ht
      · rintro rfl
        rw [show punctuation? '$' = none by decide] at ht
        cases ht
    refine ⟨trivial, ?_, ?_, ?_, fun h => absurd h hop⟩
    · simp [LexState.place, Place.next, hmark]
    · rw [hshown, Option.bind_some]
      unfold punctuation? at ht
      split at ht
      · rename_i hdot
        cases ht
        rw [hdot]
        rfl
      · split at ht
        · rename_i hcomma
          cases ht
          rw [hcomma]
          rfl
        · obtain ⟨e, he, rfl⟩ := Option.map_eq_some_iff.mp ht
          rw [he]
          rfl
    · simp [hshown, huseful]

/-- They agree on it as well if a token without brackets is finished in front of it. -/
theorem beginBehind_tracks {before ts : List Token} {c : Char} {st : LexState}
    (hbefore : tokenEdges before = []) (h : LexState.beginBehind before c = some (ts, st)) :
    Tracks .outside c ts st := by
  obtain ⟨⟨us, st'⟩, hbegin, heq⟩ := Option.map_eq_some_iff.mp h
  cases heq
  obtain ⟨hmarked, hplace, hedges, huseful, hlast⟩ := begin_tracks hbegin
  refine ⟨hmarked, hplace, ?_, huseful, hlast⟩
  rw [← hedges, tokenEdges, List.filterMap_append,
    show before.filterMap Token.edge? = [] from hbefore]
  rfl

/-- The lexer and the scan read one character. -/
theorem step_tracks {st st' : LexState} {c : Char} {ts : List Token} (hmarked : st.Marked)
    (h : st.step c = some (ts, st')) : Tracks st.place c ts st' := by
  -- where a token ends, `c` begins the next one
  have hbehind (hplace : st.place = .outside)
      (hstep : (st.finish.bind fun us => LexState.beginBehind us c) = some (ts, st')) :
      Tracks st.place c ts st' := by
    obtain ⟨us, hfinish, hbegin⟩ := Option.bind_eq_some_iff.mp hstep
    rw [hplace]
    exact beginBehind_tracks (LexState.tokenEdges_finish hfinish).1 hbegin
  cases st with
  | start dotted => exact begin_tracks h
  | word dotted s =>
    rw [LexState.step] at h
    split at h
    · rename_i hword
      cases h
      exact tracks_plain (.inr (.inl hword)) trivial rfl fun hop => by
        simp [not_isOpChar (.inr hword)] at hop
    · split at h
      · cases h
      · exact hbehind rfl h
  | op s =>
    rw [LexState.step] at h
    split at h
    · rename_i hop
      split at h
      · cases h
      · cases h
        exact tracks_plain (.inr (.inr hop)) trivial rfl fun _ => by simp [LexState.last]
    · exact hbehind rfl h
  | quoted mark s =>
    cases h
    have hshown : (Place.inside mark).shown c = none := by simp [Place.shown]
    -- nothing shows inside quotes, whatever the character is
    refine ⟨?_, ?_, ?_, ?_, ?_⟩
    · split <;> exact hmarked
    · by_cases hc : c = mark <;> simp [LexState.place, Place.next, hc]
    · simp [LexState.place, hshown, tokenEdges]
    · simp [LexState.place, hshown]
    · simp [LexState.place, hshown]
  | closed mark s =>
    rw [LexState.step] at h
    split at h
    · rename_i hc
      cases h
      subst hc
      -- a doubled mark: out of the quotes and into them again
      have hmark : isMark c = true := hmarked
      have hshown : Place.outside.shown c = none := by simp [Place.shown, hmark]
      refine ⟨hmark, ?_, ?_, ?_, ?_⟩
      · simp [LexState.place, Place.next, hmark]
      · simp [LexState.place, hshown, tokenEdges]
      · simp [LexState.place, hshown]
      · simp [LexState.place, hshown]
    · exact hbehind rfl h

/-! ### Whole texts -/

/-- What is shown is the character itself. -/
theorem eq_of_shown {place : Place} {c d : Char} (h : place.shown c = some d) : c = d := by
  unfold Place.shown at h
  split at h
  · exact Option.some.inj h
  · cases h

/-- The second character of a comment mark stops the lexer. -/
theorem step_comment {marks : Char × Char} (hmarks : marks ∈ LexState.commentMarks) {s : List Char}
    (hs : s.getLast? = some marks.1) : (LexState.op s).step marks.2 = none := by
  have hops : ∀ p ∈ LexState.commentMarks, isOpChar p.2 = true := by decide
  have hopens : LexState.opensComment s marks.2 = true :=
    List.any_eq_true.mpr ⟨marks, hmarks, by simp [hs]⟩
  rw [LexState.step, if_pos (hops marks hmarks), if_pos hopens]

/-- Two characters that begin a comment do not show side by side, neither between the
    state and the text nor within the text. -/
theorem no_comment_of_run {marks : Char × Char} (hmarks : marks ∈ LexState.commentMarks)
    {st st' : LexState} {s : List Char} {ts : List Token} (hmarked : st.Marked)
    (h : run st s = some (ts, st')) :
    ¬ [some marks.1, some marks.2] <:+: st.last ++ bare st.place s := by
  induction s generalizing st ts with
  | nil =>
    intro hpair
    have hlength := hpair.length_le
    cases st <;> simp [LexState.last, bare] at hlength
  | cons c s ih =>
    rw [run] at h
    obtain ⟨⟨us, mid⟩, hstep, hrest⟩ := Option.bind_eq_some_iff.mp h
    obtain ⟨⟨vs, final⟩, hrun, heq⟩ := Option.map_eq_some_iff.mp hrest
    cases heq
    have htracks := step_tracks hmarked hstep
    have hmid := ih htracks.marked hrun
    rw [htracks.place_eq] at hmid
    -- within the text: the first of the two is still in sight behind it
    have hwithin : ¬ [some marks.1, some marks.2] <:+: bare st.place (c :: s) := by
      rw [bare, List.infix_cons_iff]
      rintro (hhere | hpair)
      · rw [List.cons_prefix_cons] at hhere
        obtain ⟨hc, hsecond⟩ := hhere
        have hops : ∀ p ∈ LexState.commentMarks, isOpChar p.1 = true := by decide
        have heq := eq_of_shown hc.symm
        subst heq
        rw [htracks.last_eq (hops marks hmarks) hc.symm] at hmid
        exact hmid (List.IsPrefix.isInfix (List.cons_prefix_cons.mpr ⟨rfl, hsecond⟩))
      · exact hmid (hpair.trans (List.suffix_append _ _).isInfix)
    cases st with
    | op t =>
      rw [LexState.last, List.singleton_append, List.infix_cons_iff]
      rintro (hhere | hpair)
      · rw [bare, List.cons_prefix_cons, List.cons_prefix_cons] at hhere
        obtain ⟨ht, hc, -⟩ := hhere
        rw [eq_of_shown hc.symm, step_comment hmarks ht.symm] at hstep
        cases hstep
      · exact hwithin hpair
    | _ => exact hwithin

/-- The lexer and the scan read a whole text. -/
theorem run_tracks {st st' : LexState} {s : List Char} {ts : List Token} (hmarked : st.Marked)
    (h : run st s = some (ts, st')) :
    st'.place = st.place.after s ∧ tokenEdges ts = edges st.place s ∧
      some ';' ∉ bare st.place s ∧ some '$' ∉ bare st.place s := by
  induction s generalizing st ts with
  | nil =>
    cases h
    simp [tokenEdges, bare]
  | cons c s ih =>
    rw [run] at h
    obtain ⟨⟨us, mid⟩, hstep, hrest⟩ := Option.bind_eq_some_iff.mp h
    obtain ⟨⟨vs, last⟩, hrun, heq⟩ := Option.map_eq_some_iff.mp hrest
    cases heq
    -- the first character, and then the others by induction
    obtain ⟨hmid, hplace, hedges, ⟨hsemicolon, hdollar⟩, -⟩ := step_tracks hmarked hstep
    obtain ⟨ihplace, ihedges, ihsemicolon, ihdollar⟩ := ih hmid hrun
    rw [hplace] at ihplace ihedges ihsemicolon ihdollar
    refine ⟨ihplace, ?_, ?_, ?_⟩
    · rw [edges_cons, ← hedges, ← ihedges]
      exact List.filterMap_append ..
    · rw [bare, List.mem_cons, not_or]
      exact ⟨hsemicolon.symm, ihsemicolon⟩
    · rw [bare, List.mem_cons, not_or]
      exact ⟨hdollar.symm, ihdollar⟩

/-- **Containment.** A text that is made of tokens with nested brackets is contained. -/
theorem contained_of_tokens {s : String} {ts : List Token} (h : tokens? s = some ts)
    (hnested : nest [] (tokenEdges ts) = some []) : Contained s.toList := by
  obtain ⟨⟨us, st⟩, hrun, hfinish⟩ := Option.bind_eq_some_iff.mp h
  obtain ⟨vs, hvs, rfl⟩ := Option.map_eq_some_iff.mp hfinish
  have hstart : (LexState.start false).Marked := trivial
  -- the tokens that the end of the text completes hold no brackets
  obtain ⟨hplace, hedges, hsemicolon, hdollar⟩ := run_tracks hstart hrun
  obtain ⟨hnoEdges, houtside⟩ := LexState.tokenEdges_finish hvs
  exact {
    ends_outside := hplace.symm.trans houtside
    no_semicolon := hsemicolon
    no_line_comment := no_comment_of_run (show ('-', '-') ∈ _ by decide) hstart hrun
    no_block_comment := no_comment_of_run (show ('/', '*') ∈ _ by decide) hstart hrun
    no_dollar := hdollar
    nested := by
      rw [← hnested, tokenEdges, List.filterMap_append]
      rw [tokenEdges] at hedges hnoEdges
      rw [hedges, hnoEdges, List.append_nil]
      rfl }

end RowPolicy.Sql
