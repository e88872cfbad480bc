/-
Scriptlet.Proofs.Session.Backtracking — what going back to a mark brings back, and what it
leaves as it is, whatever was done since the mark was made.

A change of mode cuts the log off at the read place, and a mark is a place in the log. So
the invariant is about the log (`RewindLog.Keeps`): as long as a mark is there, so are the
items that were read when it was made. The cut never goes below them, since marks do not
lie beyond the read place (`RewindLog.Orderly`).

`Session.rewind_restores` takes a mark and any steps that never leave fewer marks than
there are with it. The last mark can then be gone back to or forgotten. Going back leaves
mode and cursor alone, and what was handed out since is handed out once more before
anything else. It brings back what had been read when the mark was made, provided that the
mark is the last one again: a mark made later and left behind is gone back to first
(`Session.rewind_to_nested_mark`).
-/
import Scriptlet.Proofs.Session.Index
import Scriptlet.Proofs.Session.Spans

namespace Scriptlet

/-! ## Items below a mark -/

namespace RewindLog

variable {α : Type} {base log log' : RewindLog α}

/-- The log has the mark that was made where `base` stood, with all marks below it, and it
holds the items that were read there. -/
structure Keeps (base log : RewindLog α) : Prop where
  marks : base.next :: base.marks <:+ log.marks
  items : base.consumed <+: log.items.toList

theorem keeps_mark (base : RewindLog α) : base.Keeps base.mark :=
  ⟨List.suffix_rfl, List.take_prefix ..⟩

namespace Keeps

/-- Where the mark is, at least so many items have been read. -/
theorem next_le (h : base.Keeps log) (ho : log.Orderly) : base.next ≤ log.next :=
  ho.marks_le _ (h.marks.subset List.mem_cons_self)

theorem of_eq (h : base.Keeps log) (hmarks : log'.marks = log.marks)
    (hitems : log.items.toList <+: log'.items.toList) : base.Keeps log' :=
  ⟨hmarks ▸ h.marks, h.items.trans hitems⟩

/-- What is cut off lies behind the read place, and the items in question before it. -/
theorem dropUnread (h : base.Keeps log) (ho : log.Orderly) : base.Keeps log.dropUnread.2 := by
  refine ⟨h.marks, ?_⟩
  have hlength : base.consumed.length ≤ base.next := List.length_take_le ..
  rw [toList_dropUnread]
  show base.consumed <+: log.items.toList.take log.next
  rw [List.prefix_take_iff]
  exact ⟨h.items, Nat.le_trans hlength (h.next_le ho)⟩

theorem mark (h : base.Keeps log) : base.Keeps log.mark :=
  ⟨h.marks.trans (List.suffix_cons ..), h.items⟩

/-- A mark above is taken away, unless there is none. -/
theorem marks_tail {place : Nat} {marks : List Nat} (h : base.Keeps log)
    (hmarks : log.marks = place :: marks) (hdepth : base.mark.depth ≤ marks.length) :
    base.next :: base.marks <:+ marks := by
  have hsuffix := h.marks
  rw [hmarks, List.suffix_cons_iff] at hsuffix
  rcases hsuffix with heq | hsuffix
  · have hlength := congrArg List.length heq
    simp only [List.length_cons, depth, RewindLog.mark] at hlength hdepth
    omega
  · exact hsuffix

theorem rewind (h : base.Keeps log) (hr : log.rewind = .ok log')
    (hdepth : base.mark.depth ≤ log'.depth) : base.Keeps log' := by
  obtain ⟨items, next, marks⟩ := log
  cases marks with
  | nil => cases hr
  | cons place marks =>
    cases hr
    exact ⟨h.marks_tail rfl hdepth, h.items⟩

theorem release (h : base.Keeps log) (hr : log.release = .ok log')
    (hdepth : base.mark.depth ≤ log'.depth) : base.Keeps log' := by
  obtain ⟨items, next, marks⟩ := log
  cases marks with
  | nil => cases hr
  | cons place marks =>
    cases hr
    exact ⟨h.marks_tail rfl hdepth, h.items⟩

/-- Going back to the mark, if it is the last one, brings back what was read there. -/
theorem consumed_rewind (h : base.Keeps log) (ho : base.Orderly) (hr : log.rewind = .ok log')
    (hdepth : log.depth = base.mark.depth) :
    log'.consumed = base.consumed ∧ log'.marks = base.marks := by
  obtain ⟨items, next, marks⟩ := log
  obtain rfl : base.next :: base.marks = marks := h.marks.eq_of_length hdepth.symm
  cases hr
  have hlength : base.consumed.length = base.next := by
    rw [RewindLog.consumed, List.length_take, Array.length_toList]
    exact Nat.min_eq_left ho.next_le
  refine ⟨?_, rfl⟩
  have hprefix := List.prefix_iff_eq_take.1 h.items
  rw [hlength] at hprefix
  exact hprefix.symm

end Keeps

end RewindLog

namespace Session

/-! ## Marks that stay -/

/-- There are at least so many marks now and after each of the steps. -/
def keepsDepth (depth : Nat) (s : Session) : List Action → Bool
  | [] => depth ≤ s.depth
  | action :: actions => depth ≤ s.depth && keepsDepth depth (s.perform action).2 actions

variable {source : String} {base s s' : Session}

theorem le_depth_of_keepsDepth {depth : Nat} {actions : List Action}
    (h : s.keepsDepth depth actions = true) : depth ≤ s.depth := by
  cases actions with
  | nil => exact of_decide_eq_true h
  | cons => exact of_decide_eq_true (Bool.and_eq_true _ _ ▸ h).1

/-- A step keeps the items below a mark, provided that it leaves the mark. -/
theorem keeps_perform (h : base.log.Keeps s.log) (ho : s.log.Orderly) (action : Action)
    (hdepth : base.mark.depth ≤ (s.perform action).2.depth) :
    base.log.Keeps (s.perform action).2.log := by
  have hfill : s.log.items.toList <+: s.fill.log.items.toList := by
    unfold fill
    split
    · rw [RewindLog.toList_append]
      exact List.prefix_append ..
    · exact List.prefix_rfl
  cases action with
  | peek => exact h.of_eq (marks_fill s) hfill
  | consume => exact h.of_eq (marks_consume s) (items_consume s ▸ hfill)
  | setMode mode => exact h.dropUnread ho
  | mark => exact h.mark
  | rewind =>
    revert hdepth
    refine settle_snd (motive := fun s' => base.mark.depth ≤ s'.depth → base.log.Keeps s'.log)
      (fun _ => h) ?_
    intro s' hr hdepth
    obtain ⟨log, hl, rfl⟩ := rewind_eq_ok hr
    exact h.rewind hl hdepth
  | release =>
    revert hdepth
    refine settle_snd (motive := fun s' => base.mark.depth ≤ s'.depth → base.log.Keeps s'.log)
      (fun _ => h) ?_
    intro s' hr hdepth
    obtain ⟨log, hl, rfl⟩ := release_eq_ok hr
    exact h.release hl hdepth

theorem keeps_run (h : base.log.Keeps s.log) (hs : Sound source s) {actions : List Action}
    (hdepth : s.keepsDepth base.mark.depth actions = true) :
    base.log.Keeps (s.run actions).log := by
  induction actions generalizing s with
  | nil => exact h
  | cons action actions ih =>
    have hrest := (Bool.and_eq_true _ _ ▸ hdepth).2
    have hnext := keeps_perform h hs.orderly action (le_depth_of_keepsDepth hrest)
    exact ih hnext (hs.perform action) hrest

/-! ## What comes again -/

/-- What was handed out behind the last mark is handed out again, and then what was to
come. -/
theorem replayed_of_rewind (h : s.log.Orderly) (hr : s.rewind = .ok s') :
    ∃ replayed, s.consumed = s'.consumed ++ replayed ∧ s'.drain.1 = replayed ++ s.drain.1 := by
  have hstream := stream_rewind hr
  have ho := orderly_rewind h hr
  have hback : s'.log.next ≤ s.log.next := by
    obtain ⟨cursor, mode, items, next, marks⟩ := s
    cases marks with
    | nil => cases hr
    | cons place marks =>
      cases hr
      exact h.marks_le place List.mem_cons_self
  refine ⟨((s.stream.take s.log.next).drop s'.log.next).map Lexeme.token, ?_, ?_⟩
  · rw [consumed_eq h, consumed_eq ho, hstream, ← List.map_append]
    conv_lhs => rw [← List.take_append_drop s'.log.next (s.stream.take s.log.next),
      List.take_take, Nat.min_eq_left hback]
  · have hlength : s'.log.next ≤ (s.stream.take s.log.next).length := by
      rw [List.length_take]
      exact Nat.le_min.2 ⟨hback, hstream ▸ next_le_stream ho⟩
    rw [drain_fst h, drain_fst ho, hstream, ← List.map_append]
    conv_lhs => rw [← List.take_append_drop s.log.next s.stream,
      List.drop_append_of_le_length hlength]

/-- Without a change of mode the stream stays what it is. -/
theorem stream_perform (s : Session) (step : Step) :
    (s.perform step.action).2.stream = s.stream := by
  cases step with
  | peek => exact stream_fill s
  | consume => exact stream_consume s
  | mark => rfl
  | rewind =>
    obtain ⟨next, marks, h⟩ := settle_rewind s
    show (s.settle s.rewind).2.stream = s.stream
    rw [h]
    rfl
  | release =>
    obtain ⟨next, marks, h⟩ := settle_release s
    show (s.settle s.release).2.stream = s.stream
    rw [h]
    rfl

/-- So do the tokens handed out and to come, taken together. -/
theorem Sound.tokens_perform (h : Sound source s) (step : Step) :
    (s.perform step.action).2.tokens = s.tokens := by
  rw [tokens_eq (h.perform step.action).orderly, stream_perform, tokens_eq h.orderly]

theorem Sound.tokens_run (h : Sound source s) (steps : List Step) :
    (s.run (steps.map Step.action)).tokens = s.tokens := by
  induction steps generalizing s with
  | nil => rfl
  | cons step steps ih =>
    have hrest := ih (h.perform step.action)
    rw [h.tokens_perform] at hrest
    exact hrest

/-! ## Going back and staying -/

theorem exists_of_keeps (h : base.log.Keeps s.log) :
    (∃ back, s.rewind = .ok back) ∧ ∃ kept, s.release = .ok kept := by
  obtain ⟨cursor, mode, items, next, marks⟩ := s
  cases marks with
  | nil => cases List.suffix_nil.1 h.marks
  | cons place marks => exact ⟨⟨_, rfl⟩, _, rfl⟩

/-- Behind a mark and steps that leave it there, the last mark can be gone back to: mode
and cursor stay; what was handed out behind it comes again, then what was to come, until
the mode changes; and if it is the mark in question, what was handed out before it and the
marks below it are as they were. Forgetting the last mark instead changes nothing of what
was handed out and of what is to come. -/
theorem rewind_restores (initial : Mode) (source : String) (earlier actions : List Action)
    (h : (after initial source earlier).mark.keepsDepth
      (after initial source earlier).mark.depth actions = true) :
    let s := after initial source earlier
    let s' := s.mark.run actions
    (∃ back, s'.rewind = .ok back ∧ back.mode = s'.mode ∧ back.cursor = s'.cursor ∧
        (s'.depth = s.mark.depth → back.consumed = s.consumed ∧ back.depth = s.depth) ∧
        ∃ replayed, s'.consumed = back.consumed ++ replayed ∧
          back.drain.1 = replayed ++ s'.drain.1 ∧
          ∀ steps : List Step, (back.run (steps.map Step.action)).tokens = s'.tokens) ∧
      ∃ kept, s'.release = .ok kept ∧ kept.consumed = s'.consumed ∧
        kept.drain.1 = s'.drain.1 := by
  intro s s'
  have hs : Sound source s := sound_after initial source earlier
  have hs' : Sound source s' := hs.mark.run actions
  have hkeeps : s.log.Keeps s'.log := keeps_run (RewindLog.keeps_mark s.log) hs.mark h
  obtain ⟨⟨back, hback⟩, kept, hkept⟩ := exists_of_keeps hkeeps
  refine ⟨⟨back, hback, ?_⟩, kept, hkept, ?_⟩
  · obtain ⟨replayed, hconsumed, hdrain⟩ := replayed_of_rewind hs'.orderly hback
    have hsound := hs'.rewind hback
    have htokens (steps : List Step) : (back.run (steps.map Step.action)).tokens = s'.tokens := by
      rw [hsound.tokens_run, tokens_eq hsound.orderly, stream_rewind hback, tokens_eq hs'.orderly]
    obtain ⟨log, hlog, rfl⟩ := rewind_eq_ok hback
    refine ⟨rfl, rfl, fun hdepth => ?_, replayed, hconsumed, hdrain, htokens⟩
    obtain ⟨hread, hmarks⟩ := hkeeps.consumed_rewind hs.orderly hlog hdepth
    exact ⟨congrArg (List.map Lexeme.token) hread, congrArg List.length hmarks⟩
  · have hstream := stream_release hkept
    have ho := orderly_release hs'.orderly hkept
    have hnext : kept.log.next = s'.log.next := by
      obtain ⟨log, hlog, rfl⟩ := release_eq_ok hkept
      unfold RewindLog.release at hlog
      split at hlog <;> cases hlog
      rfl
    rw [consumed_eq ho, consumed_eq hs'.orderly, drain_fst ho, drain_fst hs'.orderly, hstream,
      hnext]
    exact ⟨rfl, rfl⟩

/-- The fault of an open string is handed out behind the mark, and the mode changes with the
string still pending, once inside a further mark: the fault comes again, the string does
not. -/
theorem rewind_restores_behind_fault :
    let s := after .breakout "a 'b c" [.consume]
    let actions : List Action :=
      [.consume, .consume, .mark, .setMode .http, .consume, .rewind, .peek, .setMode .http]
    let s' := s.mark.run actions
    s.mark.keepsDepth s.mark.depth actions = true ∧ s'.depth = s.mark.depth ∧
      s'.drain.1.map Token.text = ["'b", " ", "c"] ∧
      ∃ back, s'.rewind = .ok back ∧ back.mode = .http ∧ back.consumed = s.consumed ∧
        back.drain.1 = s'.consumed.drop 1 ++ s'.drain.1 := by
  intro s actions s'
  have hkeeps : s.mark.keepsDepth s.mark.depth actions = true := by decide +kernel
  have hdepth : s'.depth = s.mark.depth := by decide +kernel
  have htexts : s'.drain.1.map Token.text = ["'b", " ", "c"] := by decide +kernel
  have hmode : s'.mode = .http := by decide +kernel
  have hlength : s.consumed.length = 1 := by decide +kernel
  obtain ⟨⟨back, hback, hsame, -, hrestored, replayed, hconsumed, hdrain, -⟩, -⟩ :=
    rewind_restores .breakout "a 'b c" [.consume] actions hkeeps
  obtain ⟨hread, -⟩ := hrestored hdepth
  have hreplayed : s'.consumed.drop 1 = replayed := by
    rw [← hlength, ← hread]
    exact hconsumed ▸ List.drop_left
  refine ⟨hkeeps, hdepth, htexts, back, hback, hsame.trans hmode, hread, ?_⟩
  rw [hreplayed]
  exact hdrain

/-- A mark that was made in between and is still there is the one gone back to: the token
handed out before it is not taken back, and one mark more is left than before. -/
theorem rewind_to_nested_mark :
    let s := after .breakout "a b" []
    let actions : List Action := [.consume, .mark]
    s.mark.keepsDepth s.mark.depth actions = true ∧
      ∃ back, (s.mark.run actions).rewind = .ok back ∧
        back.consumed ≠ s.consumed ∧ back.depth ≠ s.depth := by
  intro s actions
  refine ⟨by decide +kernel, s.mark.consume.2, rfl, ?_, ?_⟩
  · decide +kernel
  · decide +kernel

end Session

end Scriptlet
