/-
Scriptlet.Proofs.Session.Run — sessions after any number of steps, and what all
of them have in common.

`Session.Sound source s` is the invariant. The lexemes in the log are a chain
from the start of the source to the cursor, and the places that the log knows are
in order. Nothing is said about the mode: lexemes of different modes stand in one
log, and all that matters is that each begins where the text before it ends.

The step that needs the chain is `Session.Sound.setMode`. The cursor goes back to
where the first dropped lexeme began, which may be a fault, the token of a fault
already handed out, or a token of an older mode. In a chain this is always the
cursor behind the texts of what was handed out (`Session.Sound.chain_consumed`).
-/
import Scriptlet.Proofs.Lexeme.Chain
import Scriptlet.Proofs.Session.Stream

namespace Scriptlet.Session

/-- The session after some steps, those that were refused included. -/
def run (s : Session) (actions : List Action) : Session :=
  actions.foldl (fun s action => (s.perform action).2) s

/-- The session that reads a source from its start, after some steps. -/
def after (mode : Mode) (source : String) (actions : List Action) : Session :=
  (start mode source).run actions

/-- What holds of every session on a source. -/
structure Sound (source : String) (s : Session) : Prop where
  chain : Lexeme.Chain (.start source) s.log.items.toList s.cursor
  orderly : s.log.Orderly

theorem sound_start (mode : Mode) (source : String) : Sound source (start mode source) :=
  ⟨.nil _, RewindLog.orderly_empty⟩

namespace Sound

variable {source : String} {s s' : Session}

/-! ## One step -/

theorem fill (h : Sound source s) : Sound source s.fill := by
  refine ⟨?_, orderly_fill h.orderly⟩
  unfold Session.fill
  split
  · show Lexeme.Chain _ (s.log.append _).items.toList _
    rw [RewindLog.toList_append]
    exact h.chain.append (Lexeme.chain_scan s.mode.rules s.cursor)
  · exact h.chain

theorem consume (h : Sound source s) : Sound source s.consume.2 := by
  refine ⟨?_, orderly_consume h.orderly⟩
  have hf := h.fill.chain
  simp only [Session.consume, RewindLog.advance]
  split
  · exact hf
  · exact hf

/-- What was handed out is a chain of its own, and a change of mode takes the
cursor to where this chain ends. -/
theorem chain_consumed (h : Sound source s) (mode : Mode) :
    Lexeme.Chain (.start source) s.log.consumed (s.setMode mode).cursor := by
  have hc := h.chain
  rw [← RewindLog.consumed_append_pending] at hc
  obtain ⟨c, hread, hpending⟩ := hc.of_append
  have hcursor : (s.setMode mode).cursor = c := by
    show (s.log.dropUnread.1).elim s.cursor Lexeme.start = c
    rw [RewindLog.dropUnread_fst]
    cases hp : s.log.pending with
    | nil =>
      rw [hp] at hpending
      cases hpending
      rfl
    | cons l ls =>
      rw [hp] at hpending
      cases hpending
      rfl
  rw [hcursor]
  exact hread

theorem setMode (h : Sound source s) (mode : Mode) : Sound source (s.setMode mode) := by
  refine ⟨?_, h.orderly.dropUnread⟩
  show Lexeme.Chain _ s.log.dropUnread.2.items.toList _
  rw [RewindLog.toList_dropUnread]
  exact h.chain_consumed mode

theorem mark (h : Sound source s) : Sound source s.mark :=
  ⟨h.chain, h.orderly.mark⟩

theorem rewind (h : Sound source s) (hr : s.rewind = .ok s') : Sound source s' := by
  refine ⟨?_, orderly_rewind h.orderly hr⟩
  obtain ⟨log, hl, rfl⟩ := rewind_eq_ok hr
  rw [RewindLog.items_rewind hl]
  exact h.chain

theorem release (h : Sound source s) (hr : s.release = .ok s') : Sound source s' := by
  refine ⟨?_, orderly_release h.orderly hr⟩
  obtain ⟨log, hl, rfl⟩ := release_eq_ok hr
  rw [RewindLog.items_release hl]
  exact h.chain

/-- A step keeps the invariant, whatever is asked. -/
theorem perform (h : Sound source s) (action : Action) :
    Sound source (s.perform action).2 := by
  cases action with
  | peek => exact h.fill
  | consume => exact h.consume
  | setMode mode => exact h.setMode mode
  | mark => exact h.mark
  | rewind => exact settle_snd h fun _ hr => h.rewind hr
  | release => exact settle_snd h fun _ hr => h.release hr

/-! ## All steps -/

theorem run (h : Sound source s) (actions : List Action) : Sound source (s.run actions) := by
  induction actions generalizing s with
  | nil => exact h
  | cons action actions ih => exact ih (h.perform action)

end Sound

theorem sound_after (mode : Mode) (source : String) (actions : List Action) :
    Sound source (after mode source actions) :=
  (sound_start mode source).run actions

end Scriptlet.Session
