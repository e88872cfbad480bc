/-
Scriptlet.Proofs.Rule.Priority — the order in which the rules are tried makes no
difference.

A text opens as the pieces of one rule at most (`Rule.opens_unique`), and whether a rule
applies at a cursor is told by how the text there opens. So at most one rule applies, and
the first one in a list that does is the same in any other order of the list
(`Rule.scanFirst?_of_perm`). Everything else is read by asking for this rule: where a search
stops (`Rule.firstMatch_congr`), the batch that comes of it, and, batch after batch, all the
tokens of a source.
-/
import Mathlib.Data.List.Find
import Scriptlet.Proofs.Piece.Reading
import Scriptlet.Proofs.Rule.Beginnings

namespace Scriptlet

variable {rules rules' : List Rule}

/-! ## The rule that applies -/

namespace Rule

/-- At a cursor no two rules apply. -/
theorem scan?_exclusive {r r' : Rule} {c : Cursor} (h : (r.scan? c).isSome = true)
    (h' : (r'.scan? c).isSome = true) : r = r' := by
  rw [isSome_scan?] at h h'
  exact opens_unique h h'

/-- The first rule of a list that a text opens for is the only one, so it is found in any
order of the list. -/
theorem opening?_of_perm (h : rules.Perm rules') (text : List Char) :
    opening? rules text = opening? rules' text := by
  refine List.find?_eq_find?_of_perm h ?_
  rintro r ⟨-, hr⟩ r' ⟨-, hr'⟩
  exact opens_unique hr hr'

theorem scanFirst?_of_perm (h : rules.Perm rules') (c : Cursor) :
    scanFirst? rules c = scanFirst? rules' c := by
  rw [scanFirst?_eq, scanFirst?_eq, opening?_of_perm h]

end Rule

/-! ## What is read by asking for it -/

section Congruence

variable (h : ∀ c, Rule.scanFirst? rules c = Rule.scanFirst? rules' c)

include h

/-- A search asks for the rule at every character that it skips, and stops at the same place
if the answers are the same. -/
theorem Rule.firstMatch_congr (c : Cursor) : firstMatch rules c = firstMatch rules' c := by
  fun_induction firstMatch rules c with
  | case1 c s hs =>
    rw [h] at hs
    exact (firstMatch_of_scanFirst? hs).symm
  | case2 c hs x c' hnext ih =>
    rw [h] at hs
    exact ih.trans (firstMatch_next hs hnext).symm
  | case3 c hs hnext => exact (firstMatch_end rules' (Cursor.next?_eq_none_iff.1 hnext)).symm

theorem Batch.scan_congr (c : Cursor) : scan rules c = scan rules' c := by
  rw [scan, scan, Rule.firstMatch_congr h]

theorem Lexeme.readFrom_congr (c : Cursor) : readFrom rules c = readFrom rules' c := by
  induction c using readFrom_induction rules with
  | done c hc => rw [readFrom_end rules hc, readFrom_end rules' hc]
  | more c hc ih =>
    rw [readFrom_batch rules hc, readFrom_batch rules' hc, ih, Batch.scan_congr h]

end Congruence

/-! ## Sources -/

/-- At most one rule applies at a cursor, and whatever the order in which the rules of
Breakout are tried, white space included, the tokens of a source are the same. -/
theorem tokensBy_of_perm :
    (∀ (c : Cursor) (r r' : Rule),
      (r.scan? c).isSome = true → (r'.scan? c).isSome = true → r = r') ∧
    ∀ rules : List Rule, rules.Perm Mode.breakout.rules →
      ∀ source, tokensBy rules source = tokenize .breakout source := by
  refine ⟨fun c r r' => Rule.scan?_exclusive, fun rules h source => ?_⟩
  have hread := Lexeme.readFrom_congr (Rule.scanFirst?_of_perm h) (.start source)
  rw [tokenize, tokensBy, tokensBy, hread]

/-- Tried from the last to the first, with white space tried last, the rules read the same
tokens of a source in which a lone slash and a superscript digit are skipped. -/
theorem tokensBy_of_perm_reversed :
    (∀ r : Rule, (r.scan? (.start "// \r\n")).isSome = true → r = .comment) ∧
      Mode.breakout.rules.reverse.Perm Mode.breakout.rules ∧
      tokensBy Mode.breakout.rules.reverse "a/\u00b2 'b\r\n"
        = tokenize .breakout "a/\u00b2 'b\r\n" := by
  obtain ⟨hexclusive, hperm⟩ := tokensBy_of_perm
  refine ⟨fun r hr => ?_, List.reverse_perm _, hperm _ (List.reverse_perm _) _⟩
  exact hexclusive _ r .comment hr (by decide +kernel)

end Scriptlet
