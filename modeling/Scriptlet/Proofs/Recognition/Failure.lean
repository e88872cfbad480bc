/-
Scriptlet.Proofs.Recognition.Failure — what a search that fails leaves behind.

A choice goes on from wherever its first alternative gave up, and only an attempt
takes anything back. So a search would lose terminals between two alternatives,
were it not that all first alternatives fail without having read anything:

* `Pattern.certain` — the pattern never fails;
* `Pattern.steady` — where the pattern fails, it leaves the list as it was;
* `Pattern.sober` — whatever is tried before something else is steady.

`Phrase.pattern_sober` says that all patterns of the language are sober, although
two of them (a program and a list of arguments) are not steady themselves.
-/
import Scriptlet.Proofs.Recognition.Takes

namespace Scriptlet

/-- Whether a phrase that is not found leaves the list as it was. -/
def Phrase.steady : Phrase → Bool
  | .program | .argumentList => false
  | _ => true

namespace Pattern

/-- Whether the pattern is found everywhere. -/
def certain : Pattern → Bool
  | .nothing | .many _ => true
  | .ended | .terminal _ | .phrase _ => false
  | .sequence p q => p.certain && q.certain
  | .choice _ q => q.certain
  | .attempt p => p.certain

/-- Whether the pattern, where it is not found, leaves the list as it was. Behind
the first part of a sequence nothing may fail any more. -/
def steady : Pattern → Bool
  | .nothing | .ended | .terminal _ | .many _ | .attempt _ => true
  | .sequence p q => p.steady && q.certain
  | .choice p q => p.steady && q.steady
  | .phrase x => x.steady

/-- Whether all first alternatives and all repeated patterns are steady. -/
def sober : Pattern → Bool
  | .nothing | .ended | .terminal _ | .phrase _ => true
  | .sequence p q => p.sober && q.sober
  | .choice p q => p.steady && p.sober && q.sober
  | .many p => p.steady && p.sober
  | .attempt p => p.sober

end Pattern

theorem Phrase.pattern_steady (x : Phrase) (h : x.steady = true) : x.pattern.steady = true := by
  cases x <;> first | rfl | cases h

theorem Phrase.pattern_sober (x : Phrase) : x.pattern.sober = true := by
  cases x <;> rfl

namespace Pattern.Takes

variable {p : Pattern} {w r : List Terminal} {found : Bool}

theorem found_of_certain (h : Takes p w found r) (hp : p.certain = true) : found = true := by
  induction h with
  | nothing => rfl
  | ended => cases hp
  | accepted => rfl
  | refused => cases hp
  | sequenceFails _ ih => exact ih (Bool.and_eq_true _ _ ▸ hp).1
  | sequence _ _ _ ih' => exact ih' (Bool.and_eq_true _ _ ▸ hp).2
  | choiceFirst => rfl
  | choiceSecond _ _ _ ih' => exact ih' hp
  | manyDone => rfl
  | manyMore _ _ _ ih' => exact ih' hp
  | attemptKept => rfl
  | attemptUndone _ ih => exact ih hp
  | phrase => cases hp

/-- A steady pattern that fails leaves the list as it was. -/
theorem eq_of_steady (h : Takes p w found r) (hf : found = false) (hp : p.steady = true) :
    r = w := by
  induction h with
  | nothing => rfl
  | ended => rfl
  | accepted => cases hf
  | refused => rfl
  | sequenceFails _ ih => exact ih rfl (Bool.and_eq_true _ _ ▸ hp).1
  | sequence _ second =>
    have := second.found_of_certain (Bool.and_eq_true _ _ ▸ hp).2
    rw [hf] at this
    cases this
  | choiceFirst => cases hf
  | choiceSecond _ _ ih ih' =>
    obtain ⟨hp, hq⟩ := Bool.and_eq_true _ _ ▸ hp
    rw [ih' hf hq, ih rfl hp]
  | manyDone => cases hf
  | manyMore _ others =>
    have := others.found_of_certain rfl
    rw [hf] at this
    cases this
  | attemptKept => cases hf
  | attemptUndone => rfl
  | phrase _ ih => exact ih hf (Phrase.pattern_steady _ hp)

end Pattern.Takes

end Scriptlet
