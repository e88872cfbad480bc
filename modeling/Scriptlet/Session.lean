/-
Scriptlet.Session — serving the tokens of a source one by one, with lookahead,
change of mode and backtracking. Batches are read only when they are asked for:
the session holds a cursor, and a log of what has been read from before it.

A change of mode drops the tokens that were read ahead and takes the cursor
back to where the first of them began, so that their text is read again in the
new mode.

`Session.weight` is what every loop over a session ends by: it bounds the
number of tokens that are still to come.
-/
import Scriptlet.Batch
import Scriptlet.RewindLog

namespace Scriptlet

/-- A source that is being read token by token. The tokens still pending in the
log lie before the cursor. -/
structure Session where
  cursor : Cursor
  mode : Mode
  log : RewindLog Lexeme

namespace Session

/-- A session at the start of a source. -/
def start (mode : Mode) (source : String) : Session :=
  ⟨.start source, mode, .empty⟩

/-- Whether another token will come. -/
def hasMore (s : Session) : Bool :=
  !s.cursor.atEnd || 0 < s.log.unread

/-- The tokens handed out so far, less those that were taken back. -/
def consumed (s : Session) : List Token :=
  s.log.consumed.map Lexeme.token

/-- How many marks there are. -/
def depth (s : Session) : Nat :=
  s.log.depth

/-! ## Reading -/

/-- Reads a batch if no token is pending. -/
def fill (s : Session) : Session :=
  if s.log.unread = 0 then
    let batch := Batch.scan s.mode.rules s.cursor
    { s with cursor := batch.stop, log := s.log.append batch.lexemes }
  else s

/-- The next token, which stays the next one. -/
def peek (s : Session) : Option Token × Session :=
  let s := s.fill
  (s.log.peek?.map Lexeme.token, s)

/-- The next token, which is handed out. -/
def consume (s : Session) : Option Token × Session :=
  let ⟨cursor, mode, log⟩ := s.fill
  let (lexeme?, log) := log.advance
  (lexeme?.map Lexeme.token, ⟨cursor, mode, log⟩)

/-- Goes on in a mode. What was read ahead is dropped and will be read anew. -/
def setMode (s : Session) (mode : Mode) : Session :=
  let (first?, log) := s.log.dropUnread
  ⟨first?.elim s.cursor Lexeme.start, mode, log⟩

/-! ## Backtracking -/

/-- Marks the place before the next token. -/
def mark (s : Session) : Session :=
  { s with log := s.log.mark }

/-- Goes back to the last mark and forgets it. -/
def rewind (s : Session) : Except MarkError Session :=
  s.log.rewind.map fun log => { s with log := log }

/-- Forgets the last mark and stays where it is. -/
def release (s : Session) : Except MarkError Session :=
  s.log.release.map fun log => { s with log := log }

/-! ## How much is left -/

/-- A bound on the tokens to come: those pending, and two for each character
not yet read. -/
def weight (s : Session) : Nat :=
  s.log.unread + 2 * s.cursor.rest.length

/-- No batch is read while a token is pending. -/
theorem fill_of_unread {s : Session} (h : 0 < s.log.unread) : s.fill = s := by
  rw [fill, if_neg (by omega)]

/-- Reading a batch does not raise the bound. -/
theorem weight_fill_le (s : Session) : s.fill.weight ≤ s.weight := by
  unfold fill
  split
  · next h =>
    have := Batch.weight_scan s.mode.rules s.cursor
    simp only [weight, RewindLog.unread, RewindLog.size_append] at *
    simp only [RewindLog.append]
    omega
  · exact Nat.le_refl _

/-- Handing out a token leaves less to come. -/
theorem weight_consume {s s' : Session} {t : Token} (h : s.consume = (some t, s')) :
    s'.weight < s.weight := by
  have hf := weight_fill_le s
  simp only [consume, Prod.mk.injEq, Option.map_eq_some_iff] at h
  obtain ⟨⟨l, hl, -⟩, rfl⟩ := h
  have hp : 0 < s.fill.log.unread := by
    rw [RewindLog.unread_pos_iff]
    unfold RewindLog.advance at hl
    split at hl
    · next h => simp [h]
    · cases hl
  have := RewindLog.unread_advance hp
  simp only [weight] at *
  omega

/-! ## All that is left -/

/-- Hands out tokens to the end, behind those handed out before. -/
def drainOnto (read : Array Token) (s : Session) : Array Token × Session :=
  match _h : s.consume with
  | (some t, s') => drainOnto (read.push t) s'
  | (none, s') => (read, s')
termination_by s.weight
decreasing_by exact weight_consume _h

/-- Hands out all tokens that are left. -/
def drain (s : Session) : List Token × Session :=
  let (tokens, s) := drainOnto #[] s
  (tokens.toList, s)

/-! ## One step at a time -/

/-- What may be asked of a session. -/
inductive Action where
  | peek
  | consume
  | setMode (mode : Mode)
  | mark
  | rewind
  | release

/-- What a session answers: nothing, a token or the lack of one, or an error. -/
inductive Reply where
  | done
  | token (token? : Option Token)
  | refused (error : MarkError)

/-- The answer of a step that succeeds with nothing to tell, and the session
after it; a refused step leaves the session as it was. -/
def settle (s : Session) : Except MarkError Session → Reply × Session
  | .ok s' => (.done, s')
  | .error e => (.refused e, s)

/-- Does one thing that was asked. -/
def perform (s : Session) : Action → Reply × Session
  | .peek =>
    let (token?, s') := s.peek
    (.token token?, s')
  | .consume =>
    let (token?, s') := s.consume
    (.token token?, s')
  | .setMode mode => (.done, s.setMode mode)
  | .mark => (.done, s.mark)
  | .rewind => s.settle s.rewind
  | .release => s.settle s.release

end Session

end Scriptlet
