/-
Scriptlet.Proofs.Session.ModeSwitch — a change of mode goes on as if nothing had
been read ahead. All that a session keeps of its past is how much text was handed
out: the tokens to come are those of a session that is opened in the new mode at
this offset (`Session.drain_setMode`).
-/
import Scriptlet.Proofs.Session.Coverage

namespace Scriptlet.Session

/-- A session with an empty log that is opened at an offset of a source. -/
def opened (mode : Mode) (source : String) (offset : Nat) : Session :=
  ⟨.standing source offset, mode, .empty⟩

/-- The number of characters in the texts of the tokens handed out. -/
def consumedLength (s : Session) : Nat :=
  (String.join (s.consumed.map Token.text)).length

theorem length_flatMap_consumed (s : Session) :
    (s.log.consumed.flatMap (·.token.text.toList)).length = s.consumedLength := by
  rw [consumedLength, consumed, Lexeme.join_text, String.length_ofList]

variable {source : String} {s : Session}

/-- The cursor behind a change of mode is known by how much was handed out. -/
theorem Sound.cursor_setMode (h : Sound source s) (mode : Mode) :
    (s.setMode mode).cursor = .standing source s.consumedLength := by
  have hread := (h.chain_consumed mode).reads
  rw [Cursor.eq_standing_of_reads hread, length_flatMap_consumed]

theorem Sound.consumedLength_le (h : Sound source s) : s.consumedLength ≤ source.length := by
  have hlen := (h.chain_consumed s.mode).reads.length_eq
  rw [length_flatMap_consumed] at hlen
  have hsource : (Cursor.start source).rest.length = source.length := String.length_toList
  omega

theorem consumed_setMode (s : Session) (mode : Mode) :
    (s.setMode mode).consumed = s.consumed := by
  show s.log.dropUnread.2.consumed.map Lexeme.token = s.log.consumed.map Lexeme.token
  rw [RewindLog.consumed_dropUnread]

/-- A session without pending lexemes hands out what its cursor and mode say. -/
theorem drain_of_pending_eq_nil (h : s.log.Orderly) (hp : s.log.pending = []) :
    s.drain.1 = (Lexeme.readFrom s.mode.rules s.cursor).map Lexeme.token := by
  have hle : s.log.items.toList.length ≤ s.log.next := List.drop_eq_nil_iff.1 hp
  have heq : s.log.next = s.log.items.toList.length := by
    have := h.next_le
    rw [Array.length_toList] at hle ⊢
    omega
  rw [drain_fst h, stream, heq, List.drop_left]

theorem pending_setMode (s : Session) (mode : Mode) : (s.setMode mode).log.pending = [] := by
  show s.log.dropUnread.2.items.toList.drop s.log.next = []
  rw [RewindLog.toList_dropUnread, RewindLog.consumed]
  simp

/-- A change of mode takes nothing back, keeps the marks, and goes on like a
session that is opened in the new mode behind the text handed out. -/
theorem drain_setMode (initial mode : Mode) (source : String) (actions : List Action) :
    ((after initial source actions).setMode mode).consumed
        = (after initial source actions).consumed ∧
      ((after initial source actions).setMode mode).depth
        = (after initial source actions).depth ∧
      (after initial source actions).consumedLength ≤ source.length ∧
      ((after initial source actions).setMode mode).drain.1
        = (opened mode source (after initial source actions).consumedLength).drain.1 := by
  have hs := sound_after initial source actions
  generalize after initial source actions = s at hs ⊢
  refine ⟨consumed_setMode s mode, rfl, hs.consumedLength_le, ?_⟩
  have hopened : (opened mode source s.consumedLength).log.pending = [] := by
    simp [opened, RewindLog.empty, RewindLog.pending]
  rw [drain_of_pending_eq_nil (hs.setMode mode).orderly (pending_setMode s mode),
    drain_of_pending_eq_nil RewindLog.orderly_empty hopened, hs.cursor_setMode]
  rfl

end Scriptlet.Session
