/-
Scriptlet.Proofs.Recognition.Language — what is found belongs to the grammar.

A pattern, read as a piece of grammar, stands for words: order of choice, greed and
attempts play no part (`Pattern.Yields`). For the phrases these words are those of
the nonterminals (`Phrase.Yields`), with two auxiliary phrases that have no
nonterminal of their own.

* `Phrase.yields_of_pattern` — the pattern of a phrase has no words that the
  grammar does not give to the phrase;
* `Pattern.Takes.yields` — so whatever a search finds is a word of the phrase it
  looked for.
-/
import Scriptlet.Grammar.Derivation
import Scriptlet.Proofs.Recognition.Failure

namespace Scriptlet

/-- The words that the grammar gives to a phrase. -/
def Phrase.Yields : Phrase → List Terminal → Prop
  | .program, word => Derives .program word
  | .expression, word => Derives .expression word
  | .assignment, word => Derives .assignment word
  | .invocation, word => Derives .invocation word
  | .operand, word => Derives .operand word
  | .memberChain, word => Derives .memberChain word
  | .memberAccess, word => word = [.point, .symbol]
  | .arguments, word => Derives .arguments word
  | .argumentList, word => ∃ (first : List Terminal) (others : List (List Terminal)),
      Derives .expression first ∧ (∀ other ∈ others, Derives .expression other) ∧
      word = first ++ (others.map (.comma :: ·)).flatten ++ [.rightRound]

/-- The words that a pattern stands for, given those of the phrases in it. -/
def Pattern.Yields : Pattern → List Terminal → Prop
  | .nothing, word | .ended, word => word = []
  | .terminal x, word => word = [x]
  | .sequence p q, word => ∃ u v, word = u ++ v ∧ p.Yields u ∧ q.Yields v
  | .choice p q, word => p.Yields word ∨ q.Yields word
  | .many p, word =>
    ∃ words : List (List Terminal), (∀ u ∈ words, p.Yields u) ∧ word = words.flatten
  | .attempt p, word => p.Yields word
  | .phrase x, word => x.Yields word

/-! ## From patterns to the grammar -/

/-- A statement before a program is a program. -/
theorem Derives.program_cons {statement word : List Terminal}
    (h : Derives .statement statement) (hp : Derives .program word) :
    Derives .program (statement ++ word) := by
  cases hp with
  | @program statements each =>
    rw [← List.flatten_cons]
    refine .program ?_
    intro word hw
    rcases List.mem_cons.1 hw with rfl | hw
    · exact h
    · exact each word hw

theorem Derives.program_nil : Derives .program [] := by
  have each : ∀ word ∈ ([] : List (List Terminal)), Derives .statement word := by simp
  exact .program each

namespace Phrase

theorem yields_program {word : List Terminal} (h : Phrase.program.pattern.Yields word) :
    Derives .program word := by
  rcases h with rfl | ⟨e, v, rfl, he, mark, u, rfl, hmark, hu⟩
  · exact .program_nil
  · rcases hmark with rfl | rfl
    · rw [← List.append_assoc]
      exact .program_cons (.endedStatement he) hu
    · exact .program_cons (.bareStatement he) hu

theorem yields_memberChain {word : List Terminal}
    (h : Phrase.memberChain.pattern.Yields word) : Derives .memberChain word := by
  obtain ⟨_, _, rfl, rfl, words, hwords, rfl⟩ := h
  have heq : words = List.replicate words.length [.point, .symbol] :=
    List.eq_replicate_iff.2 ⟨rfl, hwords⟩
  rw [heq]
  exact .memberChain words.length

theorem yields_arguments {word : List Terminal} (h : Phrase.arguments.pattern.Yields word) :
    Derives .arguments word := by
  obtain ⟨_, _, rfl, rfl, rfl | ⟨first, others, hfirst, hothers, rfl⟩⟩ := h
  · exact .noArguments
  · have := Derives.someArguments hfirst hothers
    simpa using this

theorem yields_argumentList {word : List Terminal}
    (h : Phrase.argumentList.pattern.Yields word) : Phrase.argumentList.Yields word := by
  obtain ⟨e, _, rfl, he, rfl | ⟨_, _, rfl, rfl, first, others, hfirst, hothers, rfl⟩⟩ := h
  · exact ⟨e, [], he, by simp, by simp⟩
  · refine ⟨e, first :: others, he, ?_, by simp⟩
    intro other ho
    rcases List.mem_cons.1 ho with rfl | ho
    · exact hfirst
    · exact hothers other ho

/-- The pattern of a phrase stands for words of the phrase only. -/
theorem yields_of_pattern {x : Phrase} {word : List Terminal} (h : x.pattern.Yields word) :
    x.Yields word := by
  cases x with
  | program => exact yields_program h
  | expression =>
    rcases h with h | h
    · exact .ofAssignment h
    · exact .ofInvocation h
  | assignment =>
    obtain ⟨_, _, rfl, rfl, _, e, rfl, rfl, he⟩ := h
    exact .assignment he
  | invocation =>
    obtain ⟨o, _, rfl, ho, calls, hcalls, rfl⟩ := h
    exact .invocation ho hcalls
  | operand =>
    rcases h with h | rfl | rfl
    · exact .ofMemberChain h
    · exact .string
    · exact .number
  | memberChain => exact yields_memberChain h
  | memberAccess =>
    obtain ⟨_, _, rfl, rfl, rfl⟩ := h
    rfl
  | arguments => exact yields_arguments h
  | argumentList => exact yields_argumentList h

end Phrase

/-! ## From searches to patterns -/

/-- What a search finds is a word of the pattern that it looked for. The pattern
must be sober: what a first alternative reads before it fails is in no word. -/
theorem Pattern.Takes.yields {p : Pattern} {w r : List Terminal} {found : Bool}
    (h : Takes p w found r) (hf : found = true) (hp : p.sober = true) :
    ∃ u, w = u ++ r ∧ p.Yields u := by
  induction h with
  | nothing w => exact ⟨[], rfl, rfl⟩
  | ended w => exact ⟨[], rfl, rfl⟩
  | accepted x w => exact ⟨[x], rfl, rfl⟩
  | refused => cases hf
  | sequenceFails => cases hf
  | sequence _ _ ih ih' =>
    obtain ⟨hp, hq⟩ := Bool.and_eq_true _ _ ▸ hp
    obtain ⟨u, rfl, hu⟩ := ih rfl hp
    obtain ⟨v, rfl, hv⟩ := ih' hf hq
    exact ⟨u ++ v, (List.append_assoc ..).symm, u, v, rfl, hu, hv⟩
  | choiceFirst _ ih =>
    obtain ⟨hp, -⟩ := Bool.and_eq_true _ _ ▸ hp
    obtain ⟨u, rfl, hu⟩ := ih rfl (Bool.and_eq_true _ _ ▸ hp).2
    exact ⟨u, rfl, .inl hu⟩
  | choiceSecond first _ _ ih' =>
    obtain ⟨hp, hq⟩ := Bool.and_eq_true _ _ ▸ hp
    obtain rfl := first.eq_of_steady rfl (Bool.and_eq_true _ _ ▸ hp).1
    obtain ⟨u, rfl, hu⟩ := ih' hf hq
    exact ⟨u, rfl, .inr hu⟩
  | manyDone body =>
    obtain rfl := body.eq_of_steady rfl (Bool.and_eq_true _ _ ▸ hp).1
    exact ⟨[], rfl, [], by simp, rfl⟩
  | manyMore _ _ ih ih' =>
    obtain ⟨u, rfl, hu⟩ := ih rfl (Bool.and_eq_true _ _ ▸ hp).2
    obtain ⟨_, rfl, words, hwords, rfl⟩ := ih' hf hp
    refine ⟨u ++ words.flatten, (List.append_assoc ..).symm, u :: words, ?_, rfl⟩
    intro v hv
    rcases List.mem_cons.1 hv with rfl | hv
    · exact hu
    · exact hwords v hv
  | attemptKept _ ih => exact ih rfl hp
  | attemptUndone => cases hf
  | @phrase x _ _ _ _ ih =>
    obtain ⟨u, rfl, hu⟩ := ih hf x.pattern_sober
    exact ⟨u, rfl, Phrase.yields_of_pattern hu⟩

end Scriptlet
