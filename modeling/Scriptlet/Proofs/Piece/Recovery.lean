/-
Scriptlet.Proofs.Piece.Recovery — reading on where nothing of the expression language begins.

Recovery is a search: a character is skipped, and all rules are tried anew at the next one.
What it skips can be told by the characters alone. A character is stray (`Stray`) if it is
of no class that tokens begin with; for a slash, the character behind it has a say. No rule
applies to a text exactly if its first character is stray (`Rule.opening?_eq_none_iff`), so
the search ends behind the stray characters that the text begins with (`strays`).

`Batch.scan_breakout` says what a batch is: one report of the stray characters, if there are
any, and behind it what the rules make of the text there.
-/
import Scriptlet.Proofs.Piece.Faults
import Scriptlet.Proofs.Rule.Beginnings

namespace Scriptlet

open Text

/-! ## Stray characters -/

/-- No token begins with the character if this text is behind it. The character is no white
space, no bracket, no operator, no quote, no digit, no letter, no underscore and no dollar
sign, and if it is a slash, it does not make a comment. -/
def Stray (x : Char) (behind : List Char) : Prop :=
  isBlank x = false ∧ x ∉ ['(', ')', '[', ']', '\x7b', '\x7d'] ∧ x ∉ ['.', '=', ',', ';'] ∧
    x ∉ ['\x27', '\x22'] ∧ x.isDigit = false ∧ isAlphabetic x = false ∧ x ∉ ['_', '$'] ∧
    ¬(x = '/' ∧ (behind.head? = some '/' ∨ behind.head? = some '*'))

instance (x : Char) (behind : List Char) : Decidable (Stray x behind) :=
  inferInstanceAs (Decidable (_ ∧ _))

/-- The stray characters that a text begins with. -/
def strays : List Char → List Char
  | [] => []
  | x :: text => if Stray x text then x :: strays text else []

theorem Bracket.ofChar?_eq_none_iff {x : Char} :
    ofChar? x = none ↔ x ∉ ['(', ')', '[', ']', '\x7b', '\x7d'] := by
  unfold ofChar?
  split <;> simp_all

theorem Operator.ofChar?_eq_none_iff {x : Char} :
    ofChar? x = none ↔ x ∉ ['.', '=', ',', ';'] := by
  unfold ofChar?
  split <;> simp_all

namespace Rule

variable {c : Cursor} {s : Scanned} {t : Token} {x : Char} {text rest : List Char}

/-! ## What no rule applies to -/

theorem any_isCommentMark_iff :
    text.head?.any isCommentMark = true ↔ text.head? = some '/' ∨ text.head? = some '*' := by
  cases text <;> simp [isCommentMark]

/-- No rule applies to a text that begins with a stray character, and one applies to every
other text. -/
theorem opening?_eq_none_iff :
    opening? Mode.breakout.rules (x :: text) = none ↔ Stray x text := by
  have hall : opening? Mode.breakout.rules (x :: text) = none ↔
      ∀ r : Rule, r.opens (x :: text) = false := by
    simp [opening?, List.find?_eq_none, mem_breakout]
  rw [hall]
  constructor
  · intro h
    have hsymbol : startsSymbol x = false := by simpa [opens, begins] using h .symbol
    simp only [startsSymbol, Bool.or_eq_false_iff, beq_eq_false_iff_ne] at hsymbol
    refine ⟨by simpa [opens, begins] using h .blank, ?_, ?_, ?_, ?_, hsymbol.1.1, ?_, ?_⟩
    · exact Bracket.ofChar?_eq_none_iff.1 (by simpa [opens, begins] using h .paren)
    · exact Operator.ofChar?_eq_none_iff.1 (by simpa [opens, begins] using h .operator)
    · simpa [opens, begins, isQuote] using h .string
    · simpa [opens, begins] using h .number
    · simpa using ⟨hsymbol.1.2, hsymbol.2⟩
    · rintro ⟨rfl, hmark⟩
      have hcomment : opens .comment ('/' :: text) = true := any_isCommentMark_iff.2 hmark
      rw [h .comment] at hcomment
      cases hcomment
  · rintro ⟨hblank, hbracket, hoperator, hquote, hdigit, hletter, hmark, hcomment⟩ r
    cases r with
    | blank => simpa [opens, begins] using hblank
    | paren => simp [opens, begins, Bracket.ofChar?_eq_none_iff.2 hbracket]
    | operator => simp [opens, begins, Operator.ofChar?_eq_none_iff.2 hoperator]
    | comment =>
      by_contra hopens
      exact hcomment (by simpa [opens, begins, any_isCommentMark_iff] using hopens)
    | string => simpa [opens, begins, isQuote] using hquote
    | number => simpa [opens, begins] using hdigit
    | symbol => simpa [opens, begins, startsSymbol, hletter] using hmark

/-- The stray characters at the beginning of a text are skipped, and a rule applies behind
them. -/
theorem skips_strays (text : List Char) :
    ∃ rest, text = strays text ++ rest ∧
      (rest ≠ [] → opening? Mode.breakout.rules rest ≠ none) ∧
      (strays text ≠ [] → Skips Mode.breakout.rules (strays text) rest) := by
  induction text with
  | nil => exact ⟨[], rfl, absurd rfl, absurd rfl⟩
  | cons x text ih =>
    rw [strays]
    split
    · next hstray =>
      obtain ⟨rest, htext, hstops, hskips⟩ := ih
      have hnone := opening?_eq_none_iff.2 hstray
      refine ⟨rest, congrArg (x :: ·) htext, hstops, fun _ => ?_⟩
      -- The last stray character is a run by itself; every other one makes a run longer.
      by_cases hlast : strays text = []
      · rw [hlast, List.nil_append] at htext
        rw [htext] at hnone
        rw [hlast]
        exact skips_singleton hnone hstops
      · rw [htext] at hnone
        exact (hskips hlast).cons hnone
    · next hstray =>
      refine ⟨x :: text, rfl, fun _ hnone => ?_, absurd rfl⟩
      exact hstray (opening?_eq_none_iff.1 hnone)

/-- A rule that applies reports nothing that was skipped. -/
theorem reports_unknown_of_scanFirst? {rules : List Rule} (h : scanFirst? rules c = some s)
    (ht : t ∈ s.tokens) : t.reports .unknownToken = false := by
  obtain ⟨r, -, hr⟩ := List.exists_of_findSome?_eq_some h
  obtain ⟨p, rest, hc, hcuts, rfl⟩ := makes_of_scan? hr
  rw [Piece.tokens_scanned hc] at ht
  exact Piece.reports_unknown_of_cuts hcuts ht

end Rule

/-! ## Batches -/

namespace Batch

open Rule Piece

/-- If a batch begins at a stray character, one report comes first in it. The text of the
report is all the stray characters that are there. What the rules make of the text behind
them follows, unless the source ends. If a batch begins elsewhere, nothing is reported as
unknown. -/
theorem scan_breakout (c : Cursor) :
    (∀ x behind, c.rest = x :: behind → Stray x behind →
      ∃ place report, c.Reads (strays c.rest) place ∧
        report = .ofFault .unknownToken (c.spanTo place) (String.ofList (strays c.rest)) ∧
        (place.rest = [] → scan Mode.breakout.rules c = ⟨[⟨report, c⟩], place⟩) ∧
        (place.rest ≠ [] → ∃ s, scanFirst? Mode.breakout.rules place = some s ∧
          (∀ t ∈ s.tokens, t.reports .unknownToken = false) ∧
          scan Mode.breakout.rules c = ⟨⟨report, c⟩ :: s.tokens.map (⟨·, place⟩), s.stop⟩)) ∧
    ((∀ x behind, c.rest = x :: behind → ¬Stray x behind) →
      ∀ l ∈ (scan Mode.breakout.rules c).lexemes, l.token.reports .unknownToken = false) := by
  constructor
  · intro x behind hc hstray
    have hne : strays c.rest ≠ [] := by simp [hc, strays, hstray]
    obtain ⟨rest, hrest, hstops, hskips⟩ := skips_strays c.rest
    have hplace := Cursor.rest_past hrest
    have hscan := scan_past Mode.breakout.blank_mem_rules (hskips hne) hrest
    rw [skipped_past hrest hne] at hscan
    refine ⟨_, _, Cursor.reads_past hrest, rfl, fun hend => ?_, fun hmore => ?_⟩
    · rw [hscan, scan_at_end _ hend]
      rfl
    · obtain ⟨s, hs⟩ := exists_scanFirst? (hplace ▸ hstops (hplace ▸ hmore))
      refine ⟨s, hs, fun t => reports_unknown_of_scanFirst? hs, ?_⟩
      rw [hscan, scan_of_scanFirst? hs]
      rfl
  · intro hstray l hl
    cases hc : c.rest with
    | nil =>
      rw [scan_at_end _ hc] at hl
      cases hl
    | cons x behind =>
      have hopen := mt opening?_eq_none_iff.1 (hstray x behind hc)
      obtain ⟨s, hs⟩ := exists_scanFirst? (hc ▸ hopen)
      rw [scan_of_scanFirst? hs] at hl
      obtain ⟨t, ht, rfl⟩ := List.mem_map.1 hl
      exact reports_unknown_of_scanFirst? hs ht

/-- A slash that makes no comment and a superscript digit are stray; a slash before a star
is not. -/
theorem scan_breakout_before_comment :
    let c := (Cursor.start "a@/\u00b2/* b").skip 1
    (∃ report others, (scan Mode.breakout.rules c).lexemes = report :: others ∧ others ≠ [] ∧
      report.token.value = some (.fault .unknownToken) ∧ report.token.text = "@/\u00b2") ∧
    ∀ l ∈ (scan Mode.breakout.rules (c.skip 3)).lexemes,
      l.token.reports .unknownToken = false := by
  intro c
  have hstrays : strays c.rest = "@/\u00b2".toList := by decide +kernel
  refine ⟨?_, ?_⟩
  · obtain ⟨place, report, hreads, rfl, -, hmore⟩ :=
      (scan_breakout c).1 '@' "/\u00b2/* b".toList rfl (by decide +kernel)
    have hrest : "@/\u00b2".toList ++ "/* b".toList = "@/\u00b2".toList ++ place.rest := by
      rw [← hstrays, ← hreads.rest_eq]
      decide +kernel
    obtain ⟨s, -, -, hscan⟩ := hmore (by rw [← List.append_cancel_left hrest]; simp)
    refine ⟨_, _, congrArg lexemes hscan, ?_, rfl, ?_⟩
    · simp [Scanned.tokens]
    · rw [hstrays]
      rfl
  · refine (scan_breakout (c.skip 3)).2 fun x behind hc => ?_
    have hcomment : (c.skip 3).rest = '/' :: "* b".toList := rfl
    obtain ⟨rfl, rfl⟩ := List.cons.inj (hcomment.symm.trans hc)
    decide +kernel

end Batch

end Scriptlet
