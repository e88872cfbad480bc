/-
Scriptlet.Proofs.Rule.Extent — what the rules have in common. Whatever a rule
makes of the text at a cursor is a token from this cursor up to one behind it,
of a kind that fits its value, and perhaps a fault about this same token
(`Scanned.Made`). No rule is opened for this: the pieces that the rules cut off
are like that (`Rule.made_of_scan?`).

`Scanned.Made.reads`, `Scanned.Made.span_eq` and `Scanned.Made.fault_eq` are what
a later proof needs of a rule's outcome: the token's text is the text read, its
span is the stretch read, and a fault repeats the span and leaves the text alone.
`Batch.outcome_scan` says the same of a batch: either a rule applied, or the source
is at its end.
-/
import Scriptlet.Proofs.Rule.Applies
import Scriptlet.Batch

namespace Scriptlet

/-- Whether a value is one that tokens of the kind carry. -/
def Kind.carries : Kind → Option Value → Bool
  | .whiteSpace, none | .comment, none => true
  | .paren, some (.paren ..) => true
  | .operator, some (.operator _) => true
  | .symbol, some (.symbol _) => true
  | .stringLiteral, some (.string _) => true
  | .numberLiteral, some (.number _) => true
  | .error, some (.fault _) => true
  | _, _ => false

namespace Scanned

/-- An outcome that a rule may have at a cursor. -/
inductive Made (c : Cursor) : Scanned → Prop where
  | sound {stop : Cursor} {kind : Kind} {value : Option Value} (before : c.Before stop)
      (carries : kind.carries value = true) (real : kind ≠ .error) :
      Made c (.sound c stop kind value)
  | faulty {stop : Cursor} {kind : Kind} {value : Option Value} {fault : Fault}
      (before : c.Before stop) (carries : kind.carries value = true) (real : kind ≠ .error)
      (known : fault ≠ .unknownToken) : Made c (.faulty c stop kind value fault)

namespace Made

variable {c : Cursor} {s : Scanned}

/-- The token's text is the text read. -/
theorem reads (h : Made c s) : c.Reads s.token.text.toList s.stop := by
  cases h with
  | sound before => exact before.reads_textTo
  | faulty before => exact before.reads_textTo

/-- The token's span is the stretch read. -/
theorem span_eq (h : Made c s) : s.token.span = c.spanTo s.stop := by
  cases h <;> rfl

theorem carries (h : Made c s) : s.token.kind.carries s.token.value = true := by
  cases h with
  | sound _ hc => exact hc
  | faulty _ hc => exact hc

theorem real (h : Made c s) : s.token.kind ≠ .error := by
  cases h with
  | sound _ _ hr => exact hr
  | faulty _ _ hr => exact hr

/-- A fault is about the whole token and leaves the text to it. -/
theorem fault_eq (h : Made c s) {t : Token} (ht : s.fault = some t) :
    ∃ fault, fault ≠ .unknownToken ∧ t = .ofFault fault s.token.span "" := by
  cases h with
  | sound => cases ht
  | faulty _ _ _ known =>
    cases ht
    exact ⟨_, known, rfl⟩

end Made

end Scanned

namespace Rule

open Cursor Scanned

/-! ## Pieces that rules cut off -/

namespace Cuts

variable {r : Rule} {p : Piece} {rest : List Char}

theorem carries (h : r.Cuts p rest) : p.kind.carries p.value = true := by
  cases h <;> rfl

theorem real (h : r.Cuts p rest) : p.kind ≠ .error := by
  cases h <;> simp

end Cuts

/-- Whatever a rule makes of a text is a piece that it cuts off. -/
theorem made_of_scan? {r : Rule} {c : Cursor} {s : Scanned} (h : r.scan? c = some s) :
    Made c s := by
  obtain ⟨p, rest, hc, hcuts, rfl⟩ := makes_of_scan? h
  have hbefore : c.Before (c.past p.text) := ⟨p.text, reads_past hc⟩
  unfold Piece.scanned
  split
  · exact .sound hbefore hcuts.carries hcuts.real
  · next fault hfault =>
    refine .faulty hbefore hcuts.carries hcuts.real ?_
    rintro rfl
    exact hcuts.known hfault

theorem made_of_scanFirst? {rules : List Rule} {c : Cursor} {s : Scanned}
    (h : scanFirst? rules c = some s) : Made c s := by
  obtain ⟨r, -, hr⟩ := List.exists_of_findSome?_eq_some h
  exact made_of_scan? hr

/-- A rule that applies makes a token with a text. -/
theorem text_ne_empty_of_scanFirst? {rules : List Rule} {c : Cursor} {s : Scanned}
    (h : scanFirst? rules c = some s) : s.token.text ≠ "" := by
  intro he
  have hlen := (made_of_scanFirst? h).reads.length_eq
  have hlt := scanFirst?_shortens h
  rw [he] at hlen
  simp at hlen
  omega

theorem before_firstMatch (rules : List Rule) (c : Cursor) :
    c.Before (firstMatch rules c).1 := by
  fun_induction firstMatch rules c with
  | case1 c => exact .refl c
  | case2 c _ x c' h ih => exact (before_next? h).trans ih
  | case3 c => exact .refl c

end Rule

/-! ## Batches -/

namespace Batch

/-- What may have been read from a cursor in one go. -/
inductive Outcome (rules : List Rule) (c : Cursor) : Batch → Prop where
  | found {place : Cursor} {s : Scanned} (before : c.Before place)
      (applies : Rule.scanFirst? rules place = some s) :
      Outcome rules c ⟨skipped c place ++ s.tokens.map (⟨·, place⟩), s.stop⟩
  | exhausted {place : Cursor} (before : c.Before place) (at_end : place.rest = []) :
      Outcome rules c ⟨skipped c place, place⟩

theorem outcome_scan (rules : List Rule) (c : Cursor) : Outcome rules c (scan rules c) := by
  have hb := Rule.before_firstMatch rules c
  have hs := @Rule.firstMatch_some rules c
  have hn := @Rule.firstMatch_none rules c
  unfold scan
  revert hb hs hn
  generalize Rule.firstMatch rules c = found
  obtain ⟨place, found⟩ := found
  intro hb hs hn
  cases found with
  | none => exact .exhausted hb (hn rfl)
  | some s => exact .found hb (hs rfl)

theorem carries_of_mem_skipped {c place : Cursor} {l : Lexeme} (hl : l ∈ skipped c place) :
    l.token.kind.carries l.token.value = true := by
  unfold skipped at hl
  split at hl
  · rw [List.mem_singleton.1 hl]
    rfl
  · cases hl

/-- The tokens of a batch carry values of their kinds, reports of faults included. -/
theorem carries_of_mem_scan {rules : List Rule} {c : Cursor} {l : Lexeme}
    (hl : l ∈ (scan rules c).lexemes) : l.token.kind.carries l.token.value = true := by
  have ho := outcome_scan rules c
  generalize scan rules c = batch at hl ho
  cases ho with
  | exhausted => exact carries_of_mem_skipped hl
  | found before applies =>
    have hmade := Rule.made_of_scanFirst? applies
    rcases List.mem_append.1 hl with hl | hl
    · exact carries_of_mem_skipped hl
    · obtain ⟨t, ht, rfl⟩ := List.mem_map.1 hl
      rcases List.mem_append.1 ht with ht | ht
      · obtain ⟨fault, -, rfl⟩ := hmade.fault_eq (Option.mem_toList.1 ht)
        rfl
      · rw [List.mem_singleton.1 ht]
        exact hmade.carries

end Batch

end Scriptlet
