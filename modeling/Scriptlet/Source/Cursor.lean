/-
Scriptlet.Source.Cursor — reading a source text one logical character at a
time. A carriage return directly before a line feed is one logical line feed
that takes up two characters; `Cursor.next?` is the only place that knows this.

A cursor is a value: to come back to a place, keep the cursor that stood there.
`Cursor.length_next?` is what every loop over a cursor ends by.
-/
import Scriptlet.Source.Span

namespace Scriptlet

/-- The text that is still to be read, and the place where it begins. -/
structure Cursor where
  rest : List Char
  pos : Position
deriving DecidableEq

namespace Cursor

/-- A cursor before the first character of a text. -/
def start (source : String) : Cursor :=
  ⟨source.toList, .start⟩

/-- A cursor at a place recorded earlier. -/
def ofPosition (source : String) (pos : Position) : Cursor :=
  ⟨source.toList.drop pos.offset, pos⟩

/-- Whether nothing is left to read. -/
def atEnd (c : Cursor) : Bool :=
  c.rest.isEmpty

/-- The next logical character, and the cursor behind it. -/
def next? : Cursor → Option (Char × Cursor)
  | ⟨[], _⟩ => none
  | ⟨'\r' :: '\n' :: rest, pos⟩ => some ('\n', ⟨rest, pos.breakLine 2⟩)
  | ⟨'\n' :: rest, pos⟩ => some ('\n', ⟨rest, pos.breakLine 1⟩)
  | ⟨x :: rest, pos⟩ => some (x, ⟨rest, pos.forward⟩)

/-- The next logical character. -/
def peek? (c : Cursor) : Option Char :=
  c.next?.map Prod.fst

/-- The cursor behind the given number of logical characters, or at the end if
there are fewer. -/
def skip (c : Cursor) : Nat → Cursor
  | 0 => c
  | n + 1 =>
    match c.next? with
    | some (_, c') => c'.skip n
    | none => c

/-- Reading a character shortens the rest. -/
theorem length_next? {c c' : Cursor} {x : Char} (h : c.next? = some (x, c')) :
    c'.rest.length < c.rest.length := by
  unfold next? at h
  split at h <;> simp at h
  all_goals
    obtain ⟨-, rfl⟩ := h
    simp only [List.length_cons]
    omega

/-- Reading a character moves the place on. -/
theorem offset_next? {c c' : Cursor} {x : Char} (h : c.next? = some (x, c')) :
    c.pos.offset < c'.pos.offset := by
  unfold next? at h
  split at h <;> simp at h
  all_goals
    obtain ⟨-, rfl⟩ := h
    simp only [Position.breakLine, Position.forward]
    omega

/-- There is no next character only at the end. -/
theorem next?_eq_none_iff {c : Cursor} : c.next? = none ↔ c.rest = [] := by
  unfold next?
  split <;> simp

/-! ## Conditional steps -/

/-- The next logical character, provided that it passes the test. -/
def nextIf? (test : Char → Bool) (c : Cursor) : Option (Char × Cursor) :=
  c.next?.filter fun step => test step.1

/-- The cursor behind the given character, if it comes next. -/
def accept? (x : Char) (c : Cursor) : Option Cursor :=
  (c.nextIf? (· == x)).map Prod.snd

/-- The cursor behind a literal text, if all of it comes next. -/
def acceptText? (literal : List Char) (c : Cursor) : Option Cursor :=
  literal.foldlM (fun c x => c.accept? x) c

/-- So does reading a character that passes a test. -/
theorem length_nextIf? {c c' : Cursor} {test : Char → Bool} {x : Char}
    (h : c.nextIf? test = some (x, c')) : c'.rest.length < c.rest.length := by
  rw [nextIf?, Option.filter_eq_some_iff] at h
  exact length_next? h.1

/-- So does reading a given character. -/
theorem length_accept? {c c' : Cursor} {x : Char} (h : c.accept? x = some c') :
    c'.rest.length < c.rest.length := by
  rw [accept?, Option.map_eq_some_iff] at h
  obtain ⟨⟨y, c''⟩, h, rfl⟩ := h
  exact length_nextIf? h

/-! ## Runs -/

/-- The cursor behind the longest run of characters that pass the test. -/
def advanceWhile (test : Char → Bool) (c : Cursor) : Cursor :=
  match _h : c.nextIf? test with
  | some (_, c') => c'.advanceWhile test
  | none => c
termination_by c.rest.length
decreasing_by exact length_nextIf? _h

/-- The cursor behind the last character. -/
def toEnd (c : Cursor) : Cursor :=
  c.advanceWhile fun _ => true

/-- A run ends at or behind its beginning. -/
theorem length_advanceWhile (test : Char → Bool) (c : Cursor) :
    (c.advanceWhile test).rest.length ≤ c.rest.length := by
  fun_induction advanceWhile test c with
  | case1 c x c' h ih => have := length_nextIf? h; omega
  | case2 => exact Nat.le_refl _

/-! ## What lies between two cursors -/

/-- The text from a cursor up to a later one on the same source. -/
def textTo (c stop : Cursor) : String :=
  String.ofList (c.rest.take (stop.pos.offset - c.pos.offset))

/-- The text from an earlier cursor up to this one, unless the other is not
earlier after all. -/
def textSince? (c origin : Cursor) : Option String :=
  if origin.pos.offset ≤ c.pos.offset then some (origin.textTo c) else none

/-- The stretch from a cursor up to another. -/
def spanTo (c stop : Cursor) : Span :=
  .between c.pos stop.pos

end Cursor

end Scriptlet
