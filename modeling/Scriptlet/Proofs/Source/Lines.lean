/-
Scriptlet.Proofs.Source.Lines — the lines and columns of the characters of a source,
by their index, and spans that agree with them.

A line feed belongs to the line that it ends, and a carriage return is a character
like any other: `Line.number` counts the line feeds before a character, and
`Line.column` counts the characters since the last of them.

`Span.Exact source s` says that a span is told in these terms: it begins at the line
and column of its first character and ends at those of its last character.
`Cursor.Reads.exact` says that the span between two cursors is, although the cursor
behind it may stand on the next line: `Span.lastBefore` finds the way back.
-/
import Scriptlet.Proofs.Source.Reading

namespace Scriptlet

/-! ## Lines and columns -/

namespace Line

/-- The line on which the character with this index stands. -/
def number (source : String) (index : Nat) : Nat :=
  1 + (source.toList.take index).count '\n'

/-- The column of the character with this index: its distance from the character
behind the last line feed before it. -/
def column (source : String) (index : Nat) : Nat :=
  index - Position.lastLineStart (source.toList.take index) + 1

end Line

/-- The text of a source from one index up to another. -/
def slice (source : String) (start stop : Nat) : String :=
  String.ofList ((source.toList.drop start).take (stop - start))

/-- The span holds a character, and its ends are those of its first and of its last
character. -/
structure Span.Exact (source : String) (s : Span) : Prop where
  nonempty : s.startOffset < s.endOffset
  within : s.endOffset ≤ source.length
  startLine_eq : s.startLine = Line.number source s.startOffset
  startColumn_eq : s.startColumn = Line.column source s.startOffset
  endLine_eq : s.endLine = Line.number source (s.endOffset - 1)
  endColumn_eq : s.endColumn = Line.column source (s.endOffset - 1)

/-! ## Places -/

namespace Position

theorem line_after {source : String} {text rest : List Char} (h : source.toList = text ++ rest) :
    (after text).line = Line.number source text.length := by
  rw [Line.number, h, List.take_left, Nat.add_comm]
  rfl

theorem column_after {source : String} {text rest : List Char}
    (h : source.toList = text ++ rest) :
    (after text).column = Line.column source text.length := by
  rw [Line.column, h, List.take_left]
  rfl

/-- The line and column of the last character before the place behind a text are those
of the place before that character, also when it is a line feed. -/
theorem lastBefore_after_concat (text : List Char) (x : Char) :
    Span.lastBefore (after (text ++ [x])) = ((after text).line, (after text).column) := by
  have hle := lastLineStart_le text
  rw [after_concat]
  by_cases hx : x = '\n'
  · simp [hx, step, breakLine, Span.lastBefore, after, column]
    omega
  · have hcol : text.length + 1 - lastLineStart text = text.length - lastLineStart text + 1 := by
      omega
    simp [hx, step, forward, Span.lastBefore, after, column, hcol]

end Position

/-! ## Spans -/

namespace Cursor

variable {source : String} {c c' : Cursor} {before text : List Char}

theorem Reads.pos_eq_after (hb : (start source).Reads before c) : c.pos = .after before := by
  rw [hb.pos_eq, ← Position.start_along]
  rfl

/-- What is read from a cursor on is a slice of the source. -/
theorem Reads.slice_eq (hb : (start source).Reads before c) (h : c.Reads text c') :
    slice source c.pos.offset c'.pos.offset = String.ofList text := by
  have hsource : source.toList = before ++ c.rest := hb.rest_eq
  have hoffset : c.pos.offset = before.length := hb.offset_eq.trans (Nat.zero_add _)
  have hlen : c'.pos.offset - c.pos.offset = text.length := by
    have := h.offset_eq
    omega
  rw [slice, hlen, hoffset, hsource, List.drop_left, h.rest_eq, List.take_left]

/-- The span of what is read from a cursor on is exact. -/
theorem Reads.exact (hb : (start source).Reads before c) (h : c.Reads text c')
    (hne : text ≠ []) : (c.spanTo c').Exact source := by
  obtain ⟨body, x, rfl⟩ : ∃ body x, text = body ++ [x] :=
    ⟨_, _, (List.dropLast_concat_getLast hne).symm⟩
  have hfirst : source.toList = before ++ c.rest := hb.rest_eq
  have hlast : source.toList = (before ++ body) ++ x :: c'.rest := by
    rw [hfirst, h.rest_eq]
    simp
  have hpos : c.pos = .after before := hb.pos_eq_after
  have hpos' : c'.pos = .after ((before ++ body) ++ [x]) := by
    rw [List.append_assoc]
    exact (hb.trans h).pos_eq_after
  have hend : c'.pos.offset - 1 = (before ++ body).length := by
    rw [hpos']
    simp [Position.after]
  have hback := Position.lastBefore_after_concat (before ++ body) x
  rw [← hpos'] at hback
  refine ⟨?_, ?_, ?_, ?_, ?_, ?_⟩
  · show c.pos.offset < c'.pos.offset
    rw [h.offset_eq]
    simp
  · show c'.pos.offset ≤ source.length
    rw [← String.length_toList, hlast, hpos']
    simp [Position.after]
  · show c.pos.line = Line.number source c.pos.offset
    rw [hpos]
    exact Position.line_after hfirst
  · show c.pos.column = Line.column source c.pos.offset
    rw [hpos]
    exact Position.column_after hfirst
  · show (Span.lastBefore c'.pos).1 = Line.number source (c'.pos.offset - 1)
    rw [hback, hend]
    exact Position.line_after hlast
  · show (Span.lastBefore c'.pos).2 = Line.column source (c'.pos.offset - 1)
    rw [hback, hend]
    exact Position.column_after hlast

end Cursor

end Scriptlet
