/-
Scriptlet.Proofs.Source.Walk — where a cursor can be, whatever it was asked to do.

`Cursor.Stands source c` is the invariant: the cursor stands behind a beginning of the
source, at the place that this beginning has, and not inside a line break. Reading a logical
character keeps it (`Cursor.Stands.next?`), and the other ways to go on are made of that.
Going back keeps it because a cursor that stands is known by its position
(`Cursor.Stands.ofPosition_eq`), so that it is enough to record positions.

`Position.Exact source p` says the same of a position alone, in terms of the line feeds
before it: `Line.IsStart` tells where the last of them ends.

What a walk reads is told by its answers (`Walk.replies`): going on step by step, it answers with
the logical characters of what is left (`Walk.replies_replicate_advance`).
-/
import Scriptlet.Proofs.Source.Lines
import Scriptlet.Proofs.Text.Run
import Scriptlet.Source.Walk

namespace Scriptlet

open Text

/-! ## Where lines begin -/

/-- The index lies just behind the last line feed of the text, or is 0 if there is none. -/
def Line.IsStart (text : List Char) (index : Nat) : Prop :=
  index = 0 ∧ '\n' ∉ text ∨
    ∃ before behind, text = before ++ '\n' :: behind ∧ '\n' ∉ behind ∧ index = before.length + 1

namespace Position

theorem isStart_lastLineStart (text : List Char) : Line.IsStart text (lastLineStart text) := by
  induction text using List.reverseRecOn with
  | nil => exact .inl ⟨rfl, by simp⟩
  | append_singleton text x ih =>
    rw [lastLineStart_concat]
    by_cases hx : x = '\n'
    · rw [if_pos hx, hx]
      exact .inr ⟨text, [], rfl, by simp, rfl⟩
    · rw [if_neg hx]
      rcases ih with ⟨hzero, hnone⟩ | ⟨before, behind, rfl, hnone, hstart⟩
      · exact .inl ⟨hzero, by simp [hnone, Ne.symm hx]⟩
      · exact .inr ⟨before, behind ++ [x], by simp, by simp [hnone, Ne.symm hx], hstart⟩

/-- The position is one that a source has: its offset does not lie beyond the end or inside a
line break, its line is counted by the line feeds before it, and this line and the line
before it begin just behind a line feed, unless they are the first. -/
structure Exact (source : String) (p : Position) : Prop where
  within : p.offset ≤ source.length
  unbroken : Unbroken (source.toList.take p.offset) (source.toList.drop p.offset)
  line_eq : p.line = 1 + (source.toList.take p.offset).count '\n'
  lineStart : Line.IsStart (source.toList.take p.offset) p.lineStart
  prevLineStart : Line.IsStart (source.toList.take (p.lineStart - 1)) p.prevLineStart

/-- The place behind a beginning of the source is exact. -/
theorem exact_after {source : String} {text rest : List Char} (h : source.toList = text ++ rest)
    (hunbroken : Unbroken text rest) : Exact source (after text) := by
  have htake : source.toList.take text.length = text := by rw [h, List.take_left]
  have hdrop : source.toList.drop text.length = rest := by rw [h, List.drop_left]
  have hle := lastLineStart_le text
  refine ⟨?_, ?_, ?_, ?_, ?_⟩
  · show text.length ≤ source.length
    rw [← String.length_toList, h, List.length_append]
    omega
  · show Unbroken (source.toList.take text.length) (source.toList.drop text.length)
    rw [htake, hdrop]
    exact hunbroken
  · show text.count '\n' + 1 = 1 + (source.toList.take text.length).count '\n'
    rw [htake, Nat.add_comm]
  · show Line.IsStart (source.toList.take text.length) (lastLineStart text)
    rw [htake]
    exact isStart_lastLineStart text
  · show Line.IsStart (source.toList.take (lastLineStart text - 1))
      (lastLineStart (text.take (lastLineStart text - 1)))
    rw [h, List.take_append_of_le_length (by omega)]
    exact isStart_lastLineStart _

end Position

/-! ## Where a cursor stands -/

namespace Cursor

variable {source : String} {c c' : Cursor} {x : Char}

/-- The cursor stands behind a beginning of the source and not inside a line break. -/
def Stands (source : String) (c : Cursor) : Prop :=
  ∃ before, (start source).Reads before c ∧ Unbroken before c.rest

theorem stands_start (source : String) : Stands source (start source) :=
  ⟨[], .refl _, by simp [Unbroken]⟩

namespace Stands

theorem exact (h : Stands source c) : c.pos.Exact source := by
  obtain ⟨before, hreads, hunbroken⟩ := h
  rw [hreads.pos_eq_after]
  exact Position.exact_after hreads.rest_eq hunbroken

/-- The position is that of the text before it, and so it depends on the offset alone. -/
theorem pos_eq (h : Stands source c) : c.pos = .after (source.toList.take c.pos.offset) := by
  obtain ⟨before, hreads, -⟩ := h
  have hsource : source.toList = before ++ c.rest := hreads.rest_eq
  have hoffset : c.pos.offset = before.length := by
    rw [hreads.pos_eq_after]
    rfl
  rw [hoffset, hsource, List.take_left]
  exact hreads.pos_eq_after

/-- The cursor is known by its position. -/
theorem ofPosition_eq (h : Stands source c) : ofPosition source c.pos = c := by
  have hpos := h.pos_eq
  obtain ⟨before, hreads, -⟩ := h
  have hoffset : c.pos.offset = before.length := by
    rw [hreads.pos_eq_after]
    rfl
  have hstanding := eq_standing_of_reads hreads
  rwa [standing, ← hoffset, ← hpos, eq_comm] at hstanding

/-! ### Going on -/

theorem next? (h : Stands source c) (hnext : c.next? = some (x, c')) : Stands source c' := by
  obtain ⟨before, hreads, -⟩ := h
  obtain ⟨text, htext, hstep, hunbroken⟩ := reads_next?_unbroken hnext
  have hne : text ≠ [] := by rcases htext with rfl | ⟨-, rfl⟩ <;> simp
  exact ⟨before ++ text, hreads.trans hstep, (unbroken_append_iff hne).2 hunbroken⟩

theorem nextIf? {test : Char → Bool} (h : Stands source c)
    (hnext : c.nextIf? test = some (x, c')) : Stands source c' := by
  rw [Cursor.nextIf?, Option.filter_eq_some_iff] at hnext
  exact h.next? hnext.1

theorem accept? (h : Stands source c) (haccept : c.accept? x = some c') : Stands source c' := by
  rw [Cursor.accept?, Option.map_eq_some_iff] at haccept
  obtain ⟨⟨y, c''⟩, hnext, rfl⟩ := haccept
  exact h.nextIf? hnext

theorem acceptText? {literal : List Char} (h : Stands source c)
    (haccept : c.acceptText? literal = some c') : Stands source c' := by
  unfold Cursor.acceptText? at haccept
  induction literal generalizing c with
  | nil =>
    cases haccept
    exact h
  | cons x literal ih =>
    rw [List.foldlM_cons, Option.bind_eq_bind, Option.bind_eq_some_iff] at haccept
    obtain ⟨c₁, hfirst, hothers⟩ := haccept
    exact ih (h.accept? hfirst) hothers

end Stands

end Cursor

/-! ## Going on to the end -/

/-- The logical characters of a text: each line break of two characters is one line feed. -/
def Text.logical : List Char → List Char
  | [] => []
  | '\r' :: '\n' :: rest => '\n' :: logical rest
  | x :: rest => x :: logical rest

/-- Reading one character is reading the first logical one. -/
theorem Cursor.logical_next? {c c' : Cursor} {x : Char} (h : c.next? = some (x, c')) :
    Text.logical c.rest = x :: Text.logical c'.rest := by
  unfold next? at h
  split at h
  · cases h
  · cases h
    rw [Text.logical]
  · cases h
    rw [Text.logical]
    rintro rest' ⟨⟩
  · next hcrlf _ =>
    cases h
    rw [Text.logical]
    intro rest' hx hrest
    exact hcrlf rest' hx hrest

theorem Cursor.logical_at_end {c : Cursor} (h : c.next? = none) : Text.logical c.rest = [] := by
  rw [next?_eq_none_iff.1 h]
  rfl

theorem Cursor.readAll_fst (c : Cursor) : c.readAll.1 = Text.logical c.rest := by
  fun_induction readAll c with
  | case1 c x c' h others stop heq ih =>
    rw [heq] at ih
    rw [logical_next? h, ← ih]
  | case2 c h => exact (logical_at_end h).symm

theorem Cursor.Stands.readAll_snd {source : String} {c : Cursor} (h : Stands source c) :
    c.readAll.2 = ⟨[], .after source.toList⟩ := by
  fun_induction readAll c with
  | case1 c x c' hnext others stop heq ih =>
    rw [heq] at ih
    exact ih (h.next? hnext)
  | case2 c hend =>
    obtain ⟨before, hreads, -⟩ := h
    have hrest := next?_eq_none_iff.1 hend
    have hsource : source.toList = before ++ c.rest := hreads.rest_eq
    rw [hrest, List.append_nil] at hsource
    have hpos := hreads.pos_eq_after
    obtain ⟨rest, pos⟩ := c
    rw [hsource]
    simp_all

theorem Cursor.skip_at_end {c : Cursor} (h : c.next? = none) (n : Nat) : c.skip n = c := by
  cases n with
  | zero => rfl
  | succ n => rw [skip, h]

theorem Cursor.skip_of_next? {c c' : Cursor} {x : Char} (h : c.next? = some (x, c')) (n : Nat) :
    c.skip (n + 1) = c'.skip n := by
  rw [skip, h]

/-- The end is as many characters away as there are logical ones. -/
theorem Cursor.skip_length_logical (c : Cursor) :
    c.skip (Text.logical c.rest).length = c.readAll.2 := by
  fun_induction readAll c with
  | case1 c x c' h others stop heq ih =>
    rw [heq] at ih
    rw [logical_next? h, List.length_cons, skip_of_next? h, ih]
  | case2 c h =>
    rw [logical_at_end h]
    rfl

/-! ## Walks -/

namespace Walk

/-- The walk after some steps. -/
def run (w : Walk) (actions : List Action) : Walk :=
  actions.foldl (fun w action => (w.perform action).2) w

/-- What the walk answers to some steps, one by one. -/
def replies (w : Walk) : List Action → List Reply
  | [] => []
  | action :: actions => (w.perform action).1 :: replies (w.perform action).2 actions

/-- The cursor of the walk stands on its source, and so did one at each recorded place. -/
structure Sound (w : Walk) : Prop where
  cursor : w.cursor.Stands w.source
  places : ∀ pos ∈ w.places, ∃ c : Cursor, c.Stands w.source ∧ c.pos = pos

theorem sound_start (source : String) : (start source).Sound :=
  ⟨Cursor.stands_start source, by simp [start]⟩

namespace Sound

variable {w : Walk}

theorem goOn {c? : Option Cursor} (h : w.Sound) (hc : ∀ c ∈ c?, c.Stands w.source) :
    (w.goOn c?).Sound := by
  refine ⟨?_, h.places⟩
  cases c? with
  | none => exact h.cursor
  | some c => exact hc c rfl

theorem goBack (h : w.Sound) (index : Nat) : (w.goBack index).Sound := by
  refine ⟨?_, h.places⟩
  show Cursor.Stands w.source (w.places[index]?.elim w.cursor (.ofPosition w.source))
  cases hpos : w.places[index]? with
  | none => exact h.cursor
  | some pos =>
    obtain ⟨c, hc, rfl⟩ := h.places pos (List.mem_of_getElem? hpos)
    rw [Option.elim_some, hc.ofPosition_eq]
    exact hc

theorem goOn_next (h : w.Sound) {step? : Option (Char × Cursor)}
    (hstep : ∀ step ∈ step?, step.2.Stands w.source) : (w.goOn (step?.map Prod.snd)).Sound := by
  refine h.goOn fun c hc => ?_
  obtain ⟨step, hmem, rfl⟩ := Option.map_eq_some_iff.1 hc
  exact hstep step hmem

/-- A step keeps the invariant, whatever is asked. -/
theorem perform (h : w.Sound) (action : Action) : (w.perform action).2.Sound := by
  cases action with
  | advance => exact h.goOn_next fun _ hnext => h.cursor.next? hnext
  | skip => exact h.goOn_next fun _ hnext => h.cursor.next? hnext
  | accept x => exact h.goOn fun _ haccept => h.cursor.accept? haccept
  | acceptAny set => exact h.goOn_next fun _ hnext => h.cursor.nextIf? hnext
  | acceptText literal => exact h.goOn fun _ haccept => h.cursor.acceptText? haccept
  | snapshot =>
    refine ⟨h.cursor, fun pos hpos => ?_⟩
    rcases List.mem_cons.1 hpos with rfl | hpos
    · exact ⟨w.cursor, h.cursor, rfl⟩
    · exact h.places pos hpos
  | restore index => exact h.goBack index

theorem run (h : w.Sound) (actions : List Action) : (w.run actions).Sound := by
  induction actions generalizing w with
  | nil => exact h
  | cons action actions ih => exact ih (h.perform action)

end Sound

theorem source_run (w : Walk) (actions : List Action) : (w.run actions).source = w.source := by
  induction actions generalizing w with
  | nil => rfl
  | cons action actions ih =>
    refine (ih _).trans ?_
    cases action <;> rfl

/-! ### Going on step by step -/

theorem run_replicate_advance (n : Nat) (w : Walk) :
    w.run (List.replicate n .advance) = { w with cursor := w.cursor.skip n } := by
  induction n generalizing w with
  | zero => rfl
  | succ n ih =>
    rw [List.replicate_succ]
    show (w.perform .advance).2.run _ = _
    rw [ih]
    cases hnext : w.cursor.next? with
    | none => simp [perform, goOn, hnext, Cursor.skip_at_end hnext]
    | some step => simp [perform, goOn, hnext, Cursor.skip_of_next? hnext]

/-- A walk that goes on step by step answers with the logical characters that are left, and then
with the lack of one. -/
theorem replies_replicate_advance (n : Nat) (w : Walk) :
    w.replies (List.replicate n .advance) =
      (List.range n).map fun i => .char (Text.logical w.cursor.rest)[i]? := by
  induction n generalizing w with
  | zero => rfl
  | succ n ih =>
    rw [List.replicate_succ, replies, ih, List.range_succ_eq_map, List.map_cons, List.map_map]
    cases hnext : w.cursor.next? with
    | none => simp [perform, goOn, hnext, Cursor.logical_at_end hnext, Function.comp_def]
    | some step => simp [perform, goOn, hnext, Cursor.logical_next? hnext, Function.comp_def]

/-! ### Anywhere, and to the end -/

/-- Wherever a walk comes, its position is exact and depends on the offset alone, and the
cursor is the one at this position. Going on from the start to the end reads the logical
characters of the source: so does a walk that goes on step by step, which comes to the end by as
many steps as there are such characters, and is told from then on that there is none. -/
theorem exact_run (source : String) (actions : List Action) :
    let c := ((start source).run actions).cursor
    c.pos.Exact source ∧ c.pos = .after (source.toList.take c.pos.offset) ∧
      c = .ofPosition source c.pos ∧
      (Cursor.start source).readAll = (Text.logical source.toList, ⟨[], .after source.toList⟩) ∧
      (∀ n, (start source).replies (List.replicate n .advance) =
        (List.range n).map fun i => .char (Text.logical source.toList)[i]?) ∧
      ((start source).run (List.replicate (Text.logical source.toList).length .advance)).cursor =
        ⟨[], .after source.toList⟩ := by
  intro c
  have h : c.Stands source := by
    have hsound := ((sound_start source).run actions).cursor
    rwa [source_run] at hsound
  have hread := (Cursor.start source).readAll_fst
  have hend := (Cursor.stands_start source).readAll_snd
  refine ⟨h.exact, h.pos_eq, h.ofPosition_eq.symm, Prod.ext hread hend, fun n => ?_, ?_⟩
  · exact replies_replicate_advance n (start source)
  · rw [run_replicate_advance]
    exact (Cursor.start source).skip_length_logical.trans hend

end Walk

end Scriptlet
