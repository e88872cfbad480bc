/-
Scriptlet.Text.CodeRange — sets of code points, given as a list of closed
ranges. The tables of the neighbouring modules are such sets; each is named
for the Unicode property it holds.

That the ranges ascend belongs to a set, so every table is checked where it is
written. `CodeRanges.has_iff`: the early end of a search loses nothing, because
they do.
-/

namespace Scriptlet.Text

namespace CodeRanges

/-- The ranges begin at the given code point or beyond it, and ascend without
touching. -/
def ascendFrom (bound : Nat) : List (Nat × Nat) → Bool
  | [] => true
  | (first, last) :: ranges => bound ≤ first && first ≤ last && ascendFrom (last + 2) ranges

/-- No range begins before the bound. -/
theorem first_le_of_ascendFrom {bound : Nat} {ranges : List (Nat × Nat)}
    (h : ascendFrom bound ranges = true) {range : Nat × Nat} (hr : range ∈ ranges) :
    bound ≤ range.1 := by
  induction ranges generalizing bound with
  | nil => cases hr
  | cons head ranges ih =>
    simp only [ascendFrom, Bool.and_eq_true, decide_eq_true_eq] at h
    rcases List.mem_cons.1 hr with rfl | hr
    · exact h.1.1
    · have := ih h.2 hr
      omega

/-- Whether a code point lies in one of the ranges. The search ends at the
first range that begins beyond the code point, which is why the order matters. -/
def search : List (Nat × Nat) → Nat → Bool
  | [], _ => false
  | (first, last) :: ranges, n =>
    if n < first then false else n ≤ last || search ranges n

/-- In ascending ranges the search finds exactly the code points between their ends. -/
theorem search_iff {bound : Nat} {ranges : List (Nat × Nat)}
    (h : ascendFrom bound ranges = true) (n : Nat) :
    search ranges n = true ↔ ∃ range ∈ ranges, range.1 ≤ n ∧ n ≤ range.2 := by
  induction ranges generalizing bound with
  | nil => simp [search]
  | cons head ranges ih =>
    simp only [ascendFrom, Bool.and_eq_true] at h
    have hfirst := @first_le_of_ascendFrom _ _ h.2
    have hle := of_decide_eq_true h.1.2
    simp only [search, List.mem_cons, exists_eq_or_imp]
    split
    · next hn =>
      simp only [Bool.false_eq_true, false_iff, not_or]
      refine ⟨by omega, fun ⟨range, hr, hb⟩ => ?_⟩
      have := hfirst hr
      omega
    · next hn =>
      rw [Bool.or_eq_true, decide_eq_true_eq, ih h.2]
      exact or_congr_left ⟨fun hl => ⟨by omega, hl⟩, fun hl => hl.2⟩

end CodeRanges

/-- A set of code points as closed ranges, which ascend. -/
structure CodeRanges where
  ranges : List (Nat × Nat)
  ascend : CodeRanges.ascendFrom 0 ranges = true := by decide +kernel

namespace CodeRanges

/-- Whether a code point belongs to the set. -/
def has (set : CodeRanges) (n : Nat) : Bool :=
  search set.ranges n

/-- The search finds exactly the code points of the set. -/
theorem has_iff (set : CodeRanges) (n : Nat) :
    set.has n = true ↔ ∃ range ∈ set.ranges, range.1 ≤ n ∧ n ≤ range.2 :=
  search_iff set.ascend n

end CodeRanges

end Scriptlet.Text
