/-
Scriptlet.Rule.Literal — string and number literals. A string is closed by the
quote that opened it and holds everything before that quote as it stands; a
line break or the end of the source ends it early, which is a fault, and the
line break is left for the next token. A number is a run of decimal digits.
-/
import Scriptlet.Rule.Scanned

namespace Scriptlet.Rule

/-! ## Strings -/

/-- The two quotes. -/
def isQuote (x : Char) : Bool :=
  x == '\x27' || x == '\x22'

/-- Reads a string literal. -/
def string? (c : Cursor) : Option Scanned := do
  let (quote, body) ← c.nextIf? isQuote
  let stop := body.advanceWhile fun x => x != quote && x != '\n'
  let value := some (.string (body.textTo stop))
  return match stop.accept? quote with
    | some closed => .sound c closed .stringLiteral value
    | none => .faulty c stop .stringLiteral value .missingEndQuote

/-- The rule for strings reads at least one character. -/
theorem string?_shortens {c : Cursor} {s : Scanned} (h : string? c = some s) :
    s.stop.rest.length < c.rest.length := by
  simp only [string?, Option.bind_eq_bind, Option.bind_eq_some_iff, Option.pure_def,
    Option.some.injEq] at h
  obtain ⟨⟨quote, body⟩, hq, rfl⟩ := h
  have := Cursor.length_nextIf? hq
  have := Cursor.length_advanceWhile (fun x => x != quote && x != '\n') body
  dsimp only
  split
  · next h => have := Cursor.length_accept? h; simp only [Scanned.stop_sound]; omega
  · simp only [Scanned.stop_faulty]; omega

/-! ## Numbers -/

/-- The largest amount that a number token can hold. -/
def largestAmount : Nat :=
  UInt64.size - 1

/-- The amount that stands for a number: the number itself, or the largest amount. -/
def hold (amount : Nat) : UInt64 :=
  .ofNat (min amount largestAmount)

/-- An amount with one more decimal digit behind it. First ten times the amount is held at
the largest amount, and then the sum of this and the digit. -/
def appendDigit (amount : UInt64) (digit : Char) : UInt64 :=
  hold ((hold (amount.toNat * 10)).toNat + (digit.toNat - '0'.toNat))

/-- The amount that a run of decimal digits stands for. -/
def amountOf (digits : List Char) : UInt64 :=
  digits.foldl appendDigit 0

/-- Reads a number literal: the longest run of the digits from 0 to 9. -/
def number? (c : Cursor) : Option Scanned := do
  let (_, body) ← c.nextIf? Char.isDigit
  let stop := body.advanceWhile Char.isDigit
  return .sound c stop .numberLiteral (some (.number (amountOf (c.textTo stop).toList)))

/-- The rule for numbers reads at least one character. -/
theorem number?_shortens {c : Cursor} {s : Scanned} (h : number? c = some s) :
    s.stop.rest.length < c.rest.length := by
  simp only [number?, Option.bind_eq_bind, Option.bind_eq_some_iff, Option.pure_def,
    Option.some.injEq] at h
  obtain ⟨⟨x, body⟩, hx, rfl⟩ := h
  exact Nat.lt_of_le_of_lt (Cursor.length_advanceWhile ..) (Cursor.length_nextIf? hx)

end Scriptlet.Rule
