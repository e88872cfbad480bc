/-
Scriptlet.Proofs.Rule.Beginnings — a text begins as the pieces of one rule at most.

The order of the rules of a mode is of no importance for this reason: the first rule that
applies is the only one (`Rule.opening?_of_opens`). All rules but two begin with ASCII
characters, and the other two are white space and symbols. So it is enough to look at the
ASCII characters and at the white space, one by one (`Rule.begins_unique`).
-/
import Scriptlet.Proofs.Piece.Lexed

namespace Scriptlet

namespace Text.CodeRanges

/-- The code points of a set, one by one. -/
def codes (set : CodeRanges) : List Nat :=
  set.ranges.flatMap fun (first, last) => List.range' first (last + 1 - first)

theorem mem_codes {set : CodeRanges} {n : Nat} (hn : set.has n = true) : n ∈ set.codes := by
  obtain ⟨⟨first, last⟩, hmem, hfirst, hlast⟩ := (set.has_iff n).1 hn
  refine List.mem_flatMap.2 ⟨_, hmem, List.mem_range'_1.2 ⟨hfirst, ?_⟩⟩
  dsimp only at hfirst hlast ⊢
  omega

end Text.CodeRanges

namespace Rule

open Text

/-- The ASCII characters and the white space. -/
def commonCodes : List Nat :=
  List.range 128 ++ blankRanges.codes

/-- All rules but that for symbols begin with these. -/
theorem mem_commonCodes {r : Rule} {x : Char} (hr : r ≠ .symbol) (h : r.begins x = true) :
    x.toNat ∈ commonCodes := by
  have hascii (hx : x.toNat < 128) : x.toNat ∈ commonCodes :=
    List.mem_append_left _ (List.mem_range.2 hx)
  cases r with
  | blank => exact List.mem_append_right _ (CodeRanges.mem_codes h)
  | paren =>
    simp only [begins, Bracket.ofChar?] at h
    split at h
    case h_7 => cases h
    all_goals exact hascii (by decide)
  | operator =>
    simp only [begins, Operator.ofChar?] at h
    split at h
    case h_5 => cases h
    all_goals exact hascii (by decide)
  | comment =>
    rw [eq_of_beq h]
    decide +kernel
  | string =>
    simp only [begins, isQuote, Bool.or_eq_true, beq_iff_eq] at h
    rcases h with rfl | rfl <;> exact hascii (by decide)
  | number =>
    simp only [begins, Char.isDigit, Bool.and_eq_true, decide_eq_true_eq] at h
    exact hascii (Nat.lt_of_le_of_lt (UInt32.le_iff_toNat_le.1 h.2) (by decide))
  | symbol => exact absurd rfl hr

theorem begins_common : ∀ n ∈ commonCodes, ∀ r ∈ Mode.breakout.rules,
    r.begins (Char.ofNat n) = true →
      Mode.breakout.rules.filter (·.begins (Char.ofNat n)) = [r] := by
  decide +kernel

theorem mem_breakout (r : Rule) : r ∈ Mode.breakout.rules := by
  cases r <;> decide

/-- No two rules begin with one character. -/
theorem begins_unique {r r' : Rule} {x : Char} (h : r.begins x = true) (h' : r'.begins x = true) :
    r = r' := by
  have hcommon (hx : x.toNat ∈ commonCodes) : r = r' := by
    have honly := begins_common _ hx r (mem_breakout r)
    rw [Char.ofNat_toNat] at honly
    have hmem : r' ∈ Mode.breakout.rules.filter (·.begins x) :=
      List.mem_filter.2 ⟨mem_breakout r', h'⟩
    rw [honly h, List.mem_singleton] at hmem
    exact hmem.symm
  by_cases hr : r = .symbol
  · by_cases hr' : r' = .symbol
    · rw [hr, hr']
    · exact hcommon (mem_commonCodes hr' h')
  · exact hcommon (mem_commonCodes hr h)

theorem opens_unique {r r' : Rule} {text : List Char} (h : r.opens text = true)
    (h' : r'.opens text = true) : r = r' := by
  cases text with
  | nil => cases h
  | cons x text =>
    simp only [opens, List.head?_cons, Option.any_some, Bool.and_eq_true] at h h'
    exact begins_unique h.1 h'.1

/-- The rule whose pieces begin as a text does is the one that applies to it. -/
theorem opening?_of_opens {rules : List Rule} {r : Rule} {text : List Char} (hr : r ∈ rules)
    (h : r.opens text = true) : opening? rules text = some r := by
  cases hopen : opening? rules text with
  | none => exact absurd hopen (opening?_ne_none hr h)
  | some r' => rw [opens_unique (opens_of_opening? hopen) h]

/-- So a piece of a rule is cut off wherever the rule is known. -/
theorem Cuts.firstCuts {rules : List Rule} {r : Rule} {p : Piece} {rest : List Char}
    (h : r.Cuts p rest) (hr : r ∈ rules) : FirstCuts rules p rest :=
  ⟨r, opening?_of_opens hr (opens_append rest h.opens), h⟩

end Rule

end Scriptlet
