/-
Scriptlet.Source.Span — a stretch of source text, by offsets (end exclusive)
and by lines and columns (end inclusive).
-/
import Scriptlet.Source.Position

namespace Scriptlet

/-- A stretch of source text. The end line and end column are those of the
last character in it. -/
structure Span where
  startOffset : Nat
  endOffset : Nat
  startLine : Nat
  startColumn : Nat
  endLine : Nat
  endColumn : Nat
deriving DecidableEq

namespace Span

/-- The line and column of the last character before a place. Directly behind
a line break this is the break itself, which belongs to the line it ends; at
the start of the text there is no such character and the column is 0. -/
def lastBefore (p : Position) : Nat × Nat :=
  if p.offset - p.lineStart = 0 ∧ 1 < p.line then
    (p.line - 1, p.lineStart - p.prevLineStart)
  else
    (p.line, p.offset - p.lineStart)

/-- The stretch from one place up to another. -/
def between (start stop : Position) : Span where
  startOffset := start.offset
  endOffset := stop.offset
  startLine := start.line
  startColumn := start.column
  endLine := (lastBefore stop).1
  endColumn := (lastBefore stop).2

/-- The number of characters in the stretch. -/
def length (s : Span) : Nat :=
  s.endOffset - s.startOffset

/-- Whether the stretch holds no character. -/
def isEmpty (s : Span) : Bool :=
  s.startOffset == s.endOffset

/-- First and last line and column, as in `L1C1-L1C5`. -/
def display (s : Span) : String :=
  s!"L{s.startLine}C{s.startColumn}-L{s.endLine}C{s.endColumn}"

instance : ToString Span := ⟨display⟩

end Span

end Scriptlet
