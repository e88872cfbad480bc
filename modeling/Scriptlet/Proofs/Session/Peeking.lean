/-
Scriptlet.Proofs.Session.Peeking — looking at the next token is invisible: all that it
changes is how far the source has been read.

`Session.trace` writes down a run step by step, with the answer of each step and what can
be seen of the session after it (`Session.View`). `Session.trace_without_peeks` says that
a run from which all looks are deleted is the trace of the run with the looks, less the
entries of the looks; and that a look answers what handing out would answer.

The simulation behind it is `Session.Alike`. Two sessions on one source are alike if they
stand at one place of one stream, in one mode and with the same marks. Their cursors may
differ, and so may what lies in their logs behind the place. A change of mode drops just
this part and moves both cursors to the one offset that the tokens handed out lead to
(`Session.Sound.setMode_eq`), and going back to a mark leaves the stream alone. So every
step keeps sessions alike (`Session.Alike.perform`), and a look leads to a session that is
like the one before it (`Session.Alike.fill`).
-/
import Scriptlet.Proofs.Session.ModeSwitch

namespace Scriptlet.Session

/-! ## What can be seen of a session -/

/-- What a session shows without being asked for a token. Its cursor is not shown. -/
structure View where
  consumed : List Token
  mode : Mode
  depth : Nat
  hasMore : Bool

def view (s : Session) : View :=
  ⟨s.consumed, s.mode, s.depth, s.hasMore⟩

/-- The steps of a run, each with its answer and with what can be seen after it. -/
def trace (s : Session) : List Action → List (Action × Reply × View)
  | [] => []
  | action :: actions =>
    let (reply, s') := s.perform action
    (action, reply, s'.view) :: s'.trace actions

/-- Whether the step is a look at the next token. -/
def Action.isPeek : Action → Bool
  | .peek => true
  | .consume | .setMode _ | .mark | .rewind | .release => false

/-- The steps that are left if all looks are deleted. -/
def withoutPeeks (actions : List Action) : List Action :=
  actions.filter (!·.isPeek)

variable {source : String} {s s' : Session}

/-- More is to come as long as the place is not the end of the stream. -/
theorem hasMore_eq (h : s.log.Orderly) : s.hasMore = decide (s.log.next < s.stream.length) := by
  have hle := next_le_stream h
  by_cases hlt : s.log.next < s.stream.length
  · rw [decide_eq_true hlt]
    by_contra hmore
    have hnone : s.cursor.rest = [] ∧ s.log.unread = 0 := by
      simpa [hasMore, Cursor.atEnd] using hmore
    obtain ⟨hrest, hunread⟩ := hnone
    rw [stream, Lexeme.readFrom_end _ hrest, List.append_nil, Array.length_toList] at hlt
    unfold RewindLog.unread at hunread
    omega
  · rw [decide_eq_false hlt]
    exact (at_end h (by omega)).1

theorem log_consumed_eq (h : s.log.Orderly) : s.log.consumed = s.stream.take s.log.next := by
  have hle : s.log.next ≤ s.log.items.toList.length := by simpa using h.next_le
  rw [RewindLog.consumed, stream, List.take_append_of_le_length hle]

/-- A change of mode leaves nothing in the log but what was handed out, and takes the
cursor to where that ends. -/
theorem Sound.setMode_eq (h : Sound source s) (mode : Mode) :
    s.setMode mode =
      ⟨.standing source s.consumedLength, mode,
        ⟨s.log.consumed.toArray, s.log.next, s.log.marks⟩⟩ := by
  have hcursor := h.cursor_setMode mode
  have hitems : (s.setMode mode).log.items = s.log.consumed.toArray :=
    Array.toList_inj.1 (RewindLog.toList_dropUnread s.log)
  rw [← hcursor, ← hitems]
  rfl

/-! ## Sessions that cannot be told apart -/

/-- Two sessions on a source stand at one place of one stream, in one mode and with the
same marks. -/
structure Alike (source : String) (s s' : Session) : Prop where
  sound : Sound source s
  sound' : Sound source s'
  mode_eq : s.mode = s'.mode
  next_eq : s.log.next = s'.log.next
  marks_eq : s.log.marks = s'.log.marks
  stream_eq : s.stream = s'.stream

namespace Alike

theorem refl (h : Sound source s) : Alike source s s :=
  ⟨h, h, rfl, rfl, rfl, rfl⟩

theorem consumed_eq (h : Alike source s s') : s.log.consumed = s'.log.consumed := by
  rw [log_consumed_eq h.sound.orderly, log_consumed_eq h.sound'.orderly, h.stream_eq, h.next_eq]

theorem view_eq (h : Alike source s s') : s.view = s'.view := by
  have hdepth : s.depth = s'.depth := congrArg List.length h.marks_eq
  have hconsumed : s.consumed = s'.consumed := congrArg (List.map Lexeme.token) h.consumed_eq
  rw [view, view, hconsumed, h.mode_eq, hdepth, hasMore_eq h.sound.orderly,
    hasMore_eq h.sound'.orderly, h.stream_eq, h.next_eq]

/-- The next token is the same. -/
theorem token_eq (h : Alike source s s') :
    s.stream[s.log.next]?.map Lexeme.token = s'.stream[s'.log.next]?.map Lexeme.token := by
  rw [h.stream_eq, h.next_eq]

/-! ### Steps -/

/-- Reading a batch in one of the two makes no difference. -/
theorem fill (h : Alike source s s') : Alike source s.fill s' where
  sound := h.sound.fill
  sound' := h.sound'
  mode_eq := (mode_fill s).trans h.mode_eq
  next_eq := (next_fill s).trans h.next_eq
  marks_eq := (marks_fill s).trans h.marks_eq
  stream_eq := (stream_fill s).trans h.stream_eq

theorem symm (h : Alike source s s') : Alike source s' s :=
  ⟨h.sound', h.sound, h.mode_eq.symm, h.next_eq.symm, h.marks_eq.symm, h.stream_eq.symm⟩

theorem consume (h : Alike source s s') : Alike source s.consume.2 s'.consume.2 where
  sound := h.sound.consume
  sound' := h.sound'.consume
  mode_eq := by rw [mode_consume, mode_consume, h.mode_eq]
  next_eq := by
    rw [next_consume h.sound.orderly, next_consume h.sound'.orderly, h.next_eq, h.stream_eq]
  marks_eq := by rw [marks_consume, marks_consume, h.marks_eq]
  stream_eq := by rw [stream_consume, stream_consume, h.stream_eq]

/-- Behind a change of mode the two sessions are one. -/
theorem setMode_eq (h : Alike source s s') (mode : Mode) : s.setMode mode = s'.setMode mode := by
  have hlength : s.consumedLength = s'.consumedLength := by
    rw [← length_flatMap_consumed, ← length_flatMap_consumed, h.consumed_eq]
  rw [h.sound.setMode_eq, h.sound'.setMode_eq, hlength, h.consumed_eq, h.next_eq, h.marks_eq]

theorem mark (h : Alike source s s') : Alike source s.mark s'.mark where
  sound := h.sound.mark
  sound' := h.sound'.mark
  mode_eq := h.mode_eq
  next_eq := h.next_eq
  marks_eq := by
    show s.log.next :: s.log.marks = s'.log.next :: s'.log.marks
    rw [h.next_eq, h.marks_eq]
  stream_eq := h.stream_eq

/-- Both have a mark to go back to, the same one, or both refuse. -/
theorem rewind (h : Alike source s s') :
    (s.settle s.rewind).1 = (s'.settle s'.rewind).1 ∧
      Alike source (s.settle s.rewind).2 (s'.settle s'.rewind).2 := by
  have hsound := h.sound.perform .rewind
  have hsound' := h.sound'.perform .rewind
  obtain ⟨cursor, mode, items, next, marks⟩ := s
  obtain ⟨cursor', mode', items', next', marks'⟩ := s'
  obtain rfl : marks = marks' := h.marks_eq
  cases marks with
  | nil => exact ⟨rfl, h⟩
  | cons place marks => exact ⟨rfl, hsound, hsound', h.mode_eq, rfl, rfl, h.stream_eq⟩

theorem release (h : Alike source s s') :
    (s.settle s.release).1 = (s'.settle s'.release).1 ∧
      Alike source (s.settle s.release).2 (s'.settle s'.release).2 := by
  have hsound := h.sound.perform .release
  have hsound' := h.sound'.perform .release
  obtain ⟨cursor, mode, items, next, marks⟩ := s
  obtain ⟨cursor', mode', items', next', marks'⟩ := s'
  obtain rfl : marks = marks' := h.marks_eq
  cases marks with
  | nil => exact ⟨rfl, h⟩
  | cons place marks => exact ⟨rfl, hsound, hsound', h.mode_eq, h.next_eq, rfl, h.stream_eq⟩

/-- Sessions that are alike answer alike and stay alike, whatever is asked of both. -/
theorem perform (h : Alike source s s') (action : Action) :
    (s.perform action).1 = (s'.perform action).1 ∧
      Alike source (s.perform action).2 (s'.perform action).2 := by
  cases action with
  | peek =>
    have hreply : s.peek.1 = s'.peek.1 := by
      rw [peek_fst h.sound.orderly, peek_fst h.sound'.orderly, h.token_eq]
    exact ⟨congrArg Reply.token hreply, h.fill.symm.fill.symm⟩
  | consume =>
    have hreply : s.consume.1 = s'.consume.1 := by
      rw [consume_fst h.sound.orderly, consume_fst h.sound'.orderly, h.token_eq]
    exact ⟨congrArg Reply.token hreply, h.consume⟩
  | setMode mode =>
    refine ⟨rfl, ?_⟩
    show Alike source (s.setMode mode) (s'.setMode mode)
    rw [← h.setMode_eq]
    exact .refl (h.sound.setMode mode)
  | mark => exact ⟨rfl, h.mark⟩
  | rewind => exact h.rewind
  | release => exact h.release

/-! ### Runs -/

/-- A run with looks and the run without them, side by side. A look is a step of the first
session only. -/
theorem trace (h : Alike source s s') (actions : List Action) :
    (s.trace actions).filter (!·.1.isPeek) = s'.trace (withoutPeeks actions) := by
  induction actions generalizing s s' with
  | nil => rfl
  | cons action actions ih =>
    cases hpeek : action.isPeek with
    | true =>
      obtain rfl : action = .peek := by
        cases action with
        | peek => rfl
        | consume | setMode | mark | rewind | release => cases hpeek
      exact ih h.fill
    | false =>
      obtain ⟨hreply, hnext⟩ := h.perform action
      have hkeep : withoutPeeks (action :: actions) = action :: withoutPeeks actions :=
        List.filter_cons_of_pos (by simp [hpeek])
      rw [hkeep, Session.trace, Session.trace, List.filter_cons_of_pos (by simp [hpeek]), ih hnext,
        hreply, hnext.view_eq]

end Alike

/-- Deleting all looks from a run changes no answer of the other steps and nothing that can
be seen after them; and what a look answers is what would have been handed out in its
place. -/
theorem trace_without_peeks (mode : Mode) (source : String) (actions : List Action) :
    ((start mode source).trace actions).filter (!·.1.isPeek)
        = (start mode source).trace (withoutPeeks actions) ∧
      ((after mode source actions).perform .peek).1
        = ((after mode source actions).perform .consume).1 := by
  have hs := sound_after mode source actions
  have hnext := (peek_fst hs.orderly).trans (consume_fst hs.orderly).symm
  exact ⟨(Alike.refl (sound_start mode source)).trace actions, congrArg Reply.token hnext⟩

end Scriptlet.Session
