/-
Scriptlet.Rule.Scanned — what a rule of the language makes of the text at a
cursor: a token, perhaps a fault of the same span, and the cursor behind both.
-/
import Scriptlet.Source.Cursor
import Scriptlet.Token.Basic

namespace Scriptlet

/-- The outcome of a rule that applies. -/
structure Scanned where
  token : Token
  fault : Option Token
  stop : Cursor

namespace Scanned

/-- The token whose text lies between two cursors. -/
def tokenOf (start stop : Cursor) (kind : Kind) (value : Option Value) : Token :=
  ⟨kind, start.spanTo stop, start.textTo stop, value⟩

/-- A token without fault, read from one cursor up to another. -/
def sound (start stop : Cursor) (kind : Kind) (value : Option Value) : Scanned :=
  ⟨tokenOf start stop kind value, none, stop⟩

/-- A token read from one cursor up to another, although something is wrong
with it. The report covers the token's span and leaves the text to the token. -/
def faulty (start stop : Cursor) (kind : Kind) (value : Option Value) (fault : Fault) :
    Scanned :=
  ⟨tokenOf start stop kind value, some (.ofFault fault (start.spanTo stop) ""), stop⟩

@[simp] theorem stop_sound (start stop : Cursor) (kind : Kind) (value : Option Value) :
    (sound start stop kind value).stop = stop := rfl

@[simp] theorem stop_faulty (start stop : Cursor) (kind : Kind) (value : Option Value)
    (fault : Fault) : (faulty start stop kind value fault).stop = stop := rfl

/-- The tokens in the order in which they are reported: a fault comes before
the token that it is about. -/
def tokens (s : Scanned) : List Token :=
  s.fault.toList ++ [s.token]

/-- There are one or two tokens. -/
theorem length_tokens (s : Scanned) : 1 ≤ s.tokens.length ∧ s.tokens.length ≤ 2 := by
  unfold tokens
  cases s.fault <;> simp

end Scanned

end Scriptlet
