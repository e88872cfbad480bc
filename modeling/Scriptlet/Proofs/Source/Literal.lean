/-
Scriptlet.Proofs.Source.Literal — expecting a literal text.

What is left of a source is compared with the literal as its logical characters
(`Text.logical`), so a line feed that is expected goes past a line break of either length, and
a carriage return before a line feed is expected in vain. `Cursor.acceptText?_eq` says it of
every cursor.

A walk may also go past the characters of the literal one at a time, and back to where it began
at the first that does not come next (`Walk.acceptEach`). Going back by the recorded position
finds the whole cursor again, because a cursor that a walk leads to stands on its source; so both
ways come to the same, however far the walk had gone (`Walk.acceptText_atomic`).
-/
import Scriptlet.Proofs.Source.Walk

namespace Scriptlet

namespace Cursor

variable {c c' : Cursor} {x y : Char}

/-! ## One expected character -/

theorem accept?_of_next? (h : c.next? = some (y, c')) (x : Char) :
    c.accept? x = if y = x then some c' else none := by
  rw [accept?, nextIf?, h, Option.filter_some]
  by_cases hyx : y = x <;> simp [hyx]

theorem accept?_at_end (h : c.next? = none) (x : Char) : c.accept? x = none := by
  rw [accept?, nextIf?, h]
  rfl

/-! ## A literal text -/

theorem acceptText?_cons (x : Char) (literal : List Char) (c : Cursor) :
    c.acceptText? (x :: literal) = (c.accept? x).bind (acceptText? literal) :=
  List.foldlM_cons

/-- A cursor goes past a literal text exactly if what is left begins with it, a line break of
two characters being one line feed. -/
theorem acceptText?_eq (literal : List Char) (c : Cursor) :
    c.acceptText? literal =
      if literal <+: Text.logical c.rest then some (c.skip literal.length) else none := by
  induction literal generalizing c with
  | nil => simp [acceptText?, skip]
  | cons x literal ih =>
    rw [acceptText?_cons, List.length_cons]
    cases hnext : c.next? with
    | none => simp [accept?_at_end hnext, logical_at_end hnext]
    | some step =>
      obtain ⟨y, c'⟩ := step
      rw [accept?_of_next? hnext, logical_next? hnext, skip_of_next? hnext]
      by_cases hyx : y = x
      · rw [if_pos hyx, Option.bind_some, ih]
        simp [hyx]
      · simp [hyx, Ne.symm hyx]

/-- What is left at a cursor that stands on a source is what the source has behind its place. -/
theorem Stands.rest_eq {source : String} (h : Stands source c) :
    c.rest = source.toList.drop c.pos.offset :=
  (congrArg rest h.ofPosition_eq).symm

end Cursor

namespace Walk

/-! ## Walks -/

/-- Goes past the characters of a text one at a time, and back to a recorded place at the first
of them that does not come next. -/
def acceptEach (w : Walk) (origin : Position) : List Char → Reply × Walk
  | [] => (.told true, w)
  | x :: literal =>
    match w.perform (.accept x) with
    | (.told true, w') => w'.acceptEach origin literal
    | (_, w') => (.told false, { w' with cursor := .ofPosition w'.source origin })

theorem acceptEach_eq (w : Walk) (origin : Position) (literal : List Char) :
    w.acceptEach origin literal =
      match w.cursor.acceptText? literal with
      | some c => (.told true, { w with cursor := c })
      | none => (.told false, { w with cursor := .ofPosition w.source origin }) := by
  induction literal generalizing w with
  | nil => rfl
  | cons x literal ih =>
    rw [acceptEach, perform, Cursor.acceptText?_cons]
    cases haccept : w.cursor.accept? x with
    | none => rfl
    | some c => exact ih _

theorem perform_acceptText (w : Walk) (literal : String) :
    w.perform (.acceptText literal) =
      if literal.toList <+: Text.logical w.cursor.rest then
        (.told true, w.run (List.replicate literal.length .advance))
      else (.told false, w) := by
  rw [perform, Cursor.acceptText?_eq, run_replicate_advance, ← String.length_toList]
  split <;> rfl

/-- Where a line break of two characters comes next, a line feed goes past it, and a carriage
return is expected in vain. -/
theorem perform_acceptText_lineBreak {w : Walk} {more : List Char}
    (h : w.cursor.rest = '\r' :: '\n' :: more) (literal : String) :
    (w.perform (.acceptText ("\n" ++ literal))).1 =
        .told (decide (literal.toList <+: Text.logical more)) ∧
      w.perform (.acceptText ("\r\n" ++ literal)) = (.told false, w) := by
  have hlogical : Text.logical w.cursor.rest = '\n' :: Text.logical more := by
    rw [h, Text.logical]
  rw [perform_acceptText, perform_acceptText, hlogical]
  constructor
  · by_cases hmore : literal.toList <+: Text.logical more <;> simp [hmore]
  · simp

/-- Wherever a walk comes, it goes past a literal text as a whole or not at all: past it, by as
many characters, if the logical characters that are left of the source begin with it, and
otherwise it is where it was. So it is, too, if the characters are tried one at a time and the
walk goes back at the first that does not come next. -/
theorem acceptText_atomic (source : String) (actions : List Action) (literal : String) :
    let w := (start source).run actions
    let left := source.toList.drop w.cursor.pos.offset
    (w.perform (.acceptText literal) =
        if literal.toList <+: Text.logical left then
          (.told true, w.run (List.replicate literal.length .advance))
        else (.told false, w)) ∧
      w.acceptEach w.cursor.pos literal.toList = w.perform (.acceptText literal) ∧
      ∀ more, left = '\r' :: '\n' :: more →
        (w.perform (.acceptText ("\n" ++ literal))).1 =
            .told (decide (literal.toList <+: Text.logical more)) ∧
          w.perform (.acceptText ("\r\n" ++ literal)) = (.told false, w) := by
  intro w left
  have hstands : w.cursor.Stands w.source := ((sound_start source).run actions).cursor
  have hsource : w.source = source := source_run (start source) actions
  have hleft : left = w.cursor.rest := by rw [hstands.rest_eq, hsource]
  rw [hleft]
  refine ⟨w.perform_acceptText literal, ?_, fun more h => perform_acceptText_lineBreak h literal⟩
  rw [acceptEach_eq, perform, hstands.ofPosition_eq]
  cases w.cursor.acceptText? literal.toList <;> rfl

/-- The mark that opens a comment, expected together with the line break before it. -/
theorem acceptText_atomic_before_comment :
    let w := (start "a\r\n/*").run [.advance]
    "a\r\n/*".toList.drop w.cursor.pos.offset = ['\r', '\n', '/', '*'] ∧
      (w.perform (.acceptText ("\n" ++ "/*"))).1 = .told true ∧
      w.perform (.acceptText ("\r\n" ++ "/*")) = (.told false, w) := by
  intro w
  have hleft : "a\r\n/*".toList.drop w.cursor.pos.offset = ['\r', '\n', '/', '*'] := by
    decide +kernel
  have hbegins : "/*".toList <+: Text.logical ['/', '*'] := by decide +kernel
  obtain ⟨-, -, hbreak⟩ := acceptText_atomic "a\r\n/*" [.advance] "/*"
  obtain ⟨hlineFeed, hreturn⟩ := hbreak ['/', '*'] hleft
  rw [decide_eq_true hbegins] at hlineFeed
  exact ⟨hleft, hlineFeed, hreturn⟩

end Walk

end Scriptlet
