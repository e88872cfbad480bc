/-
Scriptlet.Rule.Symbol — symbols: a letter, an underscore or a dollar sign, and
behind it letters, numbers and underscores in the sense of Unicode.
-/
import Scriptlet.Rule.Scanned
import Scriptlet.Text.Numeric

namespace Scriptlet.Rule

/-- The characters that a symbol may begin with. -/
def startsSymbol (x : Char) : Bool :=
  Text.isAlphabetic x || x == '_' || x == '$'

/-- The characters that a symbol may go on with. -/
def continuesSymbol (x : Char) : Bool :=
  Text.isAlphanumeric x || x == '_'

/-- Reads a symbol. -/
def symbol? (c : Cursor) : Option Scanned := do
  let (_, body) ← c.nextIf? startsSymbol
  let stop := body.advanceWhile continuesSymbol
  return .sound c stop .symbol (some (.symbol (c.textTo stop)))

/-- The rule reads at least one character. -/
theorem symbol?_shortens {c : Cursor} {s : Scanned} (h : symbol? c = some s) :
    s.stop.rest.length < c.rest.length := by
  simp only [symbol?, Option.bind_eq_bind, Option.bind_eq_some_iff, Option.pure_def,
    Option.some.injEq] at h
  obtain ⟨⟨x, body⟩, hx, rfl⟩ := h
  exact Nat.lt_of_le_of_lt (Cursor.length_advanceWhile ..) (Cursor.length_nextIf? hx)

end Scriptlet.Rule
