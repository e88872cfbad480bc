/-
Scriptlet.Proofs.Source.Reading — what lies between two cursors on a source.

`Cursor.Reads c text c'` says that reading exactly `text` leads from `c` to
`c'`, places included. A step of a cursor is described by it once, and the modules
behind this one use the relation:

* `Cursor.reads_next?` — one logical character is one or two characters of text;
* `Cursor.Before.reads_textTo` — the text between two cursors is the text read;
* `Position.start_along` — the place kept step by step is the place that the
  text before it has, so a cursor is known by how much text lies before it
  (`Cursor.eq_standing_of_reads`).
-/
import Mathlib.Data.List.Induction
import Scriptlet.Source.Cursor

namespace Scriptlet

/-! ## Places -/

namespace Position

/-- The place behind a single character. A carriage return is an ordinary
character here: before a line feed it has no effect that the line feed does not
undo. -/
def step (p : Position) (x : Char) : Position :=
  if x = '\n' then p.breakLine 1 else p.forward

/-- The place behind a text that begins at this place. -/
def along (p : Position) (text : List Char) : Position :=
  text.foldl step p

@[simp] theorem along_nil (p : Position) : p.along [] = p := rfl

@[simp] theorem along_cons (p : Position) (x : Char) (text : List Char) :
    p.along (x :: text) = (p.step x).along text := rfl

theorem along_append (p : Position) (text text' : List Char) :
    p.along (text ++ text') = (p.along text).along text' :=
  List.foldl_append

theorem offset_step (p : Position) (x : Char) : (p.step x).offset = p.offset + 1 := by
  unfold step
  split <;> rfl

theorem offset_along (p : Position) (text : List Char) :
    (p.along text).offset = p.offset + text.length := by
  induction text generalizing p with
  | nil => rfl
  | cons x text ih =>
    rw [along_cons, ih, offset_step, List.length_cons]
    omega

/-! ### The place behind a text that begins at the start -/

theorem lastLineStart_le (text : List Char) : lastLineStart text ≤ text.length := by
  unfold lastLineStart
  omega

theorem lastLineStart_concat (text : List Char) (x : Char) :
    lastLineStart (text ++ [x]) = if x = '\n' then text.length + 1 else lastLineStart text := by
  unfold lastLineStart
  by_cases hx : x = '\n'
  · simp [hx]
  · simp [hx]

theorem after_concat (text : List Char) (x : Char) :
    after (text ++ [x]) = (after text).step x := by
  have hle := lastLineStart_le text
  by_cases hx : x = '\n'
  · subst hx
    simp [after, step, breakLine, lastLineStart_concat]
  · have htake : (text ++ [x]).take (lastLineStart text - 1)
        = text.take (lastLineStart text - 1) :=
      List.take_append_of_le_length (by omega)
    simp [after, step, forward, lastLineStart_concat, hx, htake]

/-- The place kept step by step is the place that the text before it has. -/
theorem start_along (text : List Char) : start.along text = after text := by
  induction text using List.reverseRecOn with
  | nil => rfl
  | append_singleton text x ih => rw [along_append, ih, after_concat, along_cons, along_nil]

end Position

/-! ## Reading a text -/

namespace Cursor

/-- Reading exactly this text leads from one cursor to the other. -/
structure Reads (c : Cursor) (text : List Char) (c' : Cursor) : Prop where
  rest_eq : c.rest = text ++ c'.rest
  pos_eq : c'.pos = c.pos.along text

theorem Reads.refl (c : Cursor) : c.Reads [] c :=
  ⟨rfl, rfl⟩

theorem Reads.trans {c c' c'' : Cursor} {text text' : List Char} (h : c.Reads text c')
    (h' : c'.Reads text' c'') : c.Reads (text ++ text') c'' := by
  refine ⟨?_, ?_⟩
  · rw [h.rest_eq, h'.rest_eq, List.append_assoc]
  · rw [h'.pos_eq, h.pos_eq, Position.along_append]

theorem Reads.offset_eq {c c' : Cursor} {text : List Char} (h : c.Reads text c') :
    c'.pos.offset = c.pos.offset + text.length := by
  rw [h.pos_eq, Position.offset_along]

theorem Reads.length_eq {c c' : Cursor} {text : List Char} (h : c.Reads text c') :
    c.rest.length = text.length + c'.rest.length := by
  rw [h.rest_eq, List.length_append]

/-- Reading nothing leads nowhere. -/
theorem Reads.eq_of_nil {c c' : Cursor} (h : c.Reads [] c') : c' = c := by
  obtain ⟨rest, pos⟩ := c
  obtain ⟨rest', pos'⟩ := c'
  obtain ⟨hrest, hpos⟩ := h
  simp only [List.nil_append, Position.along_nil] at hrest hpos
  rw [hrest, hpos]

/-- A logical character is the character itself, or a line feed that stands for
itself and the carriage return before it. -/
theorem reads_next? {c c' : Cursor} {x : Char} (h : c.next? = some (x, c')) :
    ∃ text, (text = [x] ∨ x = '\n' ∧ text = ['\r', '\n']) ∧ c.Reads text c' := by
  unfold next? at h
  split at h
  · cases h
  · cases h
    exact ⟨_, .inr ⟨rfl, rfl⟩, rfl, rfl⟩
  · cases h
    exact ⟨_, .inl rfl, rfl, rfl⟩
  · next hne =>
    cases h
    exact ⟨_, .inl rfl, rfl, by simp [Position.step, show x ≠ '\n' from hne]⟩

/-! ## One cursor before another -/

/-- Reading on leads from one cursor to the other. -/
def Before (c c' : Cursor) : Prop :=
  ∃ text, c.Reads text c'

theorem Before.refl (c : Cursor) : c.Before c :=
  ⟨_, .refl c⟩

theorem Before.trans {c c' c'' : Cursor} (h : c.Before c') (h' : c'.Before c'') :
    c.Before c'' := by
  obtain ⟨_, h⟩ := h
  obtain ⟨_, h'⟩ := h'
  exact ⟨_, h.trans h'⟩

theorem before_next? {c c' : Cursor} {x : Char} (h : c.next? = some (x, c')) :
    c.Before c' := by
  obtain ⟨text, -, h⟩ := reads_next? h
  exact ⟨text, h⟩

/-- The text between two cursors is the text read. -/
theorem Reads.textTo_eq {c c' : Cursor} {text : List Char} (h : c.Reads text c') :
    c.textTo c' = String.ofList text := by
  have hlen : c'.pos.offset - c.pos.offset = text.length := by
    have := h.offset_eq
    omega
  rw [textTo, hlen, h.rest_eq, List.take_left]

theorem Before.reads_textTo {c c' : Cursor} (h : c.Before c') :
    c.Reads (c.textTo c').toList c' := by
  obtain ⟨text, h⟩ := h
  rw [h.textTo_eq, String.toList_ofList]
  exact h

/-! ## Cursors by offset -/

/-- The cursor with the given number of characters before it, at the line and
the column that this offset has in the source. -/
def standing (source : String) (offset : Nat) : Cursor :=
  .ofPosition source (.after (source.toList.take offset))

/-- A cursor that reading from the start leads to is known by how much was read. -/
theorem eq_standing_of_reads {source : String} {text : List Char} {c : Cursor}
    (h : (start source).Reads text c) : c = standing source text.length := by
  have hrest : source.toList = text ++ c.rest := h.rest_eq
  have hpos : c.pos = .after text := by rw [h.pos_eq, ← Position.start_along]; rfl
  have htake : source.toList.take text.length = text := by rw [hrest, List.take_left]
  obtain ⟨rest, pos⟩ := c
  simp only at hrest hpos
  subst hpos
  rw [standing, htake, ofPosition, hrest]
  simp [Position.after]

end Cursor

end Scriptlet
