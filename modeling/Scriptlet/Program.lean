/-
Scriptlet.Program — whether a source is a program. Nothing is built from it; the
answer is yes or no.
-/
import Scriptlet.Recognition.Machine

namespace Scriptlet.Program

/-- Reads on in a session for as long as there are statements, and tells whether
that was to the end. A session that was left before its end may be read on. -/
def read (s : Session) : Bool × Session :=
  match h : Phrase.program.find s with
  | .ok outcome => outcome
  | .error e => absurd h (Phrase.find_ne_error .program s e)

/-- Whether a source is a program from beginning to end. -/
def isWellFormed (source : String) : Bool :=
  (read (.start .breakout source)).1

/-- Why a source is refused. -/
inductive Error where
  | illFormed
deriving DecidableEq

/-- The wording of the refusal. -/
def Error.message : Error → String
  | .illFormed => "Parse error: source is not a well-formed Breakout program"

/-- Refuses a source that is not a program. -/
def check (source : String) : Except Error Unit :=
  if isWellFormed source then .ok () else .error .illFormed

/-- Reading has the outcome of the search for a program. -/
theorem read_eq_iff {s s' : Session} {found : Bool} :
    read s = (found, s') ↔ (Pattern.phrase .program).Runs s found s' := by
  rw [← Phrase.find_eq_ok_iff, read]
  split
  · next h => simp [h]
  · next e h => exact absurd h (Phrase.find_ne_error .program s e)

end Scriptlet.Program
