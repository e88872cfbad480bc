/-
Scriptlet.Batch — reading on from a cursor until a rule applies. What is read in
one go is a batch: if characters had to be skipped first, a report of them; then
the fault and the token of the rule that applied.

`Batch.weight_scan` and `Batch.scan_progress` bound a batch from above and from
below: at most two tokens for each character read, and, before the end of the
source, at least one token and one character.
-/
import Scriptlet.Rule.Basic

namespace Scriptlet

/-- A token and the cursor at which its reading began. A fault and the token
behind it began at one place, for both came from one rule. -/
structure Lexeme where
  token : Token
  start : Cursor

namespace Rule

/-- The first place, from a cursor on, at which one of the rules applies, and
what it makes of the text there. If none applies any more, the place is the end
of the source. -/
def firstMatch (rules : List Rule) (c : Cursor) : Cursor × Option Scanned :=
  match scanFirst? rules c with
  | some s => (c, some s)
  | none =>
    match _h : c.next? with
    | some (_, c') => firstMatch rules c'
    | none => (c, none)
termination_by c.rest.length
decreasing_by exact Cursor.length_next? _h

/-- The search stays where it is or reads on. -/
theorem firstMatch_moves (rules : List Rule) (c : Cursor) :
    (firstMatch rules c).1 = c ∨
      ((firstMatch rules c).1.rest.length < c.rest.length ∧
        c.pos.offset < (firstMatch rules c).1.pos.offset) := by
  fun_induction firstMatch rules c with
  | case1 => exact .inl rfl
  | case2 c _ x c' h ih =>
    have := Cursor.length_next? h
    have := Cursor.offset_next? h
    rcases ih with ih | ih
    · rw [ih]; exact .inr ⟨‹_›, ‹_›⟩
    · exact .inr ⟨by omega, by omega⟩
  | case3 => exact .inl rfl

/-- What is found was found where the search stopped. -/
theorem firstMatch_some {rules : List Rule} {c : Cursor} {s : Scanned}
    (h : (firstMatch rules c).2 = some s) :
    scanFirst? rules (firstMatch rules c).1 = some s := by
  fun_induction firstMatch rules c with
  | case1 _ _ hs => cases h; exact hs
  | case2 _ _ _ _ _ ih => exact ih h
  | case3 => cases h

/-- The search gives up only at the end of the source. -/
theorem firstMatch_none {rules : List Rule} {c : Cursor}
    (h : (firstMatch rules c).2 = none) : (firstMatch rules c).1.rest = [] := by
  fun_induction firstMatch rules c with
  | case1 => cases h
  | case2 _ _ _ _ _ ih => exact ih h
  | case3 _ _ hn => exact Cursor.next?_eq_none_iff.1 hn

end Rule

/-- What one search for a token has read. -/
structure Batch where
  lexemes : List Lexeme
  stop : Cursor

namespace Batch

/-- The report of characters between two cursors that no rule applies to, if
there are any. -/
def skipped (c stop : Cursor) : List Lexeme :=
  if c.pos.offset < stop.pos.offset then
    [⟨.ofFault .unknownToken (c.spanTo stop) (c.textTo stop), c⟩]
  else []

/-- Reads from a cursor until a rule has applied, or to the end. -/
def scan (rules : List Rule) (c : Cursor) : Batch :=
  match Rule.firstMatch rules c with
  | (place, some s) => ⟨skipped c place ++ s.tokens.map (⟨·, place⟩), s.stop⟩
  | (place, none) => ⟨skipped c place, place⟩

/-- There is at most one report of skipped characters. -/
theorem length_skipped_le (c stop : Cursor) : (skipped c stop).length ≤ 1 := by
  unfold skipped
  split <;> simp

/-- Where nothing was skipped, nothing is reported. -/
theorem skipped_self (c : Cursor) : skipped c c = [] := by
  simp [skipped]

/-- A batch has at most two tokens for each character that it reads. -/
theorem weight_scan (rules : List Rule) (c : Cursor) :
    (scan rules c).lexemes.length + 2 * (scan rules c).stop.rest.length
      ≤ 2 * c.rest.length := by
  have hm := Rule.firstMatch_moves rules c
  have hs := @Rule.firstMatch_some rules c
  unfold scan
  revert hm hs
  generalize Rule.firstMatch rules c = found
  obtain ⟨place, found⟩ := found
  intro hm hs
  have hk := length_skipped_le c place
  cases found with
  | none =>
    rcases hm with hm | hm
    · cases hm; simp [skipped_self]
    · simp only at hm ⊢; omega
  | some s =>
    have := Rule.scanFirst?_shortens (hs rfl)
    have := s.length_tokens
    simp only [List.length_append, List.length_map]
    rcases hm with hm | hm
    · cases hm; simp only [skipped_self, List.length_nil]; simp only at *; omega
    · simp only at *; omega

/-- Before the end of the source, a batch has a token and reads a character. -/
theorem scan_progress (rules : List Rule) {c : Cursor} (h : c.rest ≠ []) :
    (scan rules c).lexemes ≠ [] ∧ (scan rules c).stop.rest.length < c.rest.length := by
  have hm := Rule.firstMatch_moves rules c
  have hs := @Rule.firstMatch_some rules c
  have hn := @Rule.firstMatch_none rules c
  unfold scan
  revert hm hs hn
  generalize Rule.firstMatch rules c = found
  obtain ⟨place, found⟩ := found
  intro hm hs hn
  cases found with
  | none =>
    rcases hm with hm | hm
    · cases hm; exact absurd (hn rfl) h
    · exact ⟨by simp [skipped, hm.2], hm.1⟩
  | some s =>
    have := Rule.scanFirst?_shortens (hs rfl)
    have hl := s.length_tokens
    refine ⟨fun he => ?_, ?_⟩
    · have := congrArg List.length he
      simp only [List.length_append, List.length_map, List.length_nil] at this
      omega
    · rcases hm with hm | hm
      · cases hm; exact this
      · simp only at *; omega

end Batch

end Scriptlet
