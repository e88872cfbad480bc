/-
Scriptlet.Source.Position — where a reader stands in a source text: how many
characters lie before it, on which line it is, and where this line and the line
before it begin. Offsets count Unicode scalar values from 0, lines and columns
are counted from 1.

A position is built up one step at a time (`forward`, `breakLine`);
`Position.after` says the same of a whole text at once.
-/

namespace Scriptlet

/-- A place in a source text. The start of the line before is kept because a
span may end with the line break that leads to this place. -/
structure Position where
  offset : Nat
  line : Nat
  lineStart : Nat
  prevLineStart : Nat
deriving DecidableEq

namespace Position

/-- The place before the first character. -/
def start : Position :=
  ⟨0, 1, 0, 0⟩

/-- The column of the character at this place, counted from 1. -/
def column (p : Position) : Nat :=
  p.offset - p.lineStart + 1

/-- The place one character further on the same line. -/
def forward (p : Position) : Position :=
  { p with offset := p.offset + 1 }

/-- The place behind a line break that takes up `width` characters. -/
def breakLine (p : Position) (width : Nat) : Position :=
  ⟨p.offset + width, p.line + 1, p.offset + width, p.lineStart⟩

/-- Line and column, as in `L3C14`. -/
def display (p : Position) : String :=
  s!"L{p.line}C{p.column}"

instance : ToString Position := ⟨display⟩

/-! ## The position behind a text -/

/-- The offset at which the last line of a text begins: just after its last
line feed, or 0. -/
def lastLineStart (text : List Char) : Nat :=
  text.length - (text.reverse.takeWhile (· != '\n')).length

/-- The place reached by reading exactly this text from the start. -/
def after (text : List Char) : Position where
  offset := text.length
  line := text.count '\n' + 1
  lineStart := lastLineStart text
  prevLineStart := lastLineStart (text.take (lastLineStart text - 1))

end Position

end Scriptlet
