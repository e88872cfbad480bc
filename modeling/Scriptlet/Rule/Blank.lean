/-
Scriptlet.Rule.Blank — the longest run of white space.
-/
import Scriptlet.Rule.Scanned
import Scriptlet.Text.Blank

namespace Scriptlet.Rule

/-- Reads the longest run of white space, if there is any. -/
def blank? (c : Cursor) : Option Scanned := do
  let (_, body) ← c.nextIf? Text.isBlank
  return .sound c (body.advanceWhile Text.isBlank) .whiteSpace none

/-- The rule reads at least one character. -/
theorem blank?_shortens {c : Cursor} {s : Scanned} (h : blank? c = some s) :
    s.stop.rest.length < c.rest.length := by
  simp only [blank?, Option.bind_eq_bind, Option.bind_eq_some_iff, Option.pure_def,
    Option.some.injEq] at h
  obtain ⟨⟨x, body⟩, hx, rfl⟩ := h
  exact Nat.lt_of_le_of_lt (Cursor.length_advanceWhile ..) (Cursor.length_nextIf? hx)

end Scriptlet.Rule
