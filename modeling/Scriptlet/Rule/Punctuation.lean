/-
Scriptlet.Rule.Punctuation — brackets and operators, which are single
characters.
-/
import Scriptlet.Rule.Scanned

namespace Scriptlet

/-- The bracket that a character is. -/
def Bracket.ofChar? : Char → Option (Bracket × Side)
  | '(' => some (.round, .opening)
  | ')' => some (.round, .closing)
  | '[' => some (.square, .opening)
  | ']' => some (.square, .closing)
  | '\x7b' => some (.curly, .opening)
  | '\x7d' => some (.curly, .closing)
  | _ => none

/-- The operator that a character is. -/
def Operator.ofChar? : Char → Option Operator
  | '.' => some .memberAccess
  | '=' => some .assignment
  | ',' => some .separator
  | ';' => some .endStatement
  | _ => none

namespace Rule

/-- Reads one bracket. -/
def paren? (c : Cursor) : Option Scanned := do
  let (x, stop) ← c.next?
  let (bracket, side) ← Bracket.ofChar? x
  return .sound c stop .paren (some (.paren bracket side))

/-- Reads one operator. -/
def operator? (c : Cursor) : Option Scanned := do
  let (x, stop) ← c.next?
  let operator ← Operator.ofChar? x
  return .sound c stop .operator (some (.operator operator))

/-- The rule for brackets reads a character. -/
theorem paren?_shortens {c : Cursor} {s : Scanned} (h : paren? c = some s) :
    s.stop.rest.length < c.rest.length := by
  simp only [paren?, Option.bind_eq_bind, Option.bind_eq_some_iff, Option.pure_def,
    Option.some.injEq] at h
  obtain ⟨⟨x, stop⟩, hx, ⟨b, sd⟩, -, rfl⟩ := h
  exact Cursor.length_next? hx

/-- The rule for operators reads a character. -/
theorem operator?_shortens {c : Cursor} {s : Scanned} (h : operator? c = some s) :
    s.stop.rest.length < c.rest.length := by
  simp only [operator?, Option.bind_eq_bind, Option.bind_eq_some_iff, Option.pure_def,
    Option.some.injEq] at h
  obtain ⟨⟨x, stop⟩, hx, o, -, rfl⟩ := h
  exact Cursor.length_next? hx

end Rule

end Scriptlet
