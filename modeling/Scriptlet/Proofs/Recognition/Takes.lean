/-
Scriptlet.Proofs.Recognition.Takes — patterns on a plain list of terminals. The
relation `Pattern.Takes` has the clauses of `Pattern.Runs`, but what is read is a
list and a failed attempt simply goes back to the list it began with.

`Pattern.Runs.takes` is the bridge: a search in a session does with the terminals
that are still to come what the relation says. Of the session only that list is
left, so the grammar can be compared with lists alone.

The `takes_…_iff` lemmas turn a statement about a composed pattern into statements
about its parts.
-/
import Scriptlet.Proofs.Session.Lookahead
import Scriptlet.Recognition.Runs

namespace Scriptlet.Pattern

/-- Looking for a pattern in a list ends with this answer before the rest of it. -/
inductive Takes : Pattern → List Terminal → Bool → List Terminal → Prop where
  | nothing (w : List Terminal) : Takes .nothing w true w
  | ended (w : List Terminal) : Takes .ended w w.isEmpty w
  | accepted (x : Terminal) (w : List Terminal) : Takes (.terminal x) (x :: w) true w
  | refused {x : Terminal} {w : List Terminal} (other : w.head? ≠ some x) :
      Takes (.terminal x) w false w
  | sequenceFails {p q : Pattern} {w r : List Terminal} (first : Takes p w false r) :
      Takes (.sequence p q) w false r
  | sequence {p q : Pattern} {w m r : List Terminal} {found : Bool}
      (first : Takes p w true m) (second : Takes q m found r) :
      Takes (.sequence p q) w found r
  | choiceFirst {p q : Pattern} {w r : List Terminal} (first : Takes p w true r) :
      Takes (.choice p q) w true r
  | choiceSecond {p q : Pattern} {w m r : List Terminal} {found : Bool}
      (first : Takes p w false m) (second : Takes q m found r) :
      Takes (.choice p q) w found r
  | manyDone {p : Pattern} {w r : List Terminal} (body : Takes p w false r) :
      Takes (.many p) w true r
  | manyMore {p : Pattern} {w m r : List Terminal} {found : Bool}
      (body : Takes p w true m) (others : Takes (.many p) m found r) :
      Takes (.many p) w found r
  | attemptKept {p : Pattern} {w r : List Terminal} (body : Takes p w true r) :
      Takes (.attempt p) w true r
  | attemptUndone {p : Pattern} {w m : List Terminal} (body : Takes p w false m) :
      Takes (.attempt p) w false w
  | phrase {x : Phrase} {w r : List Terminal} {found : Bool} (body : Takes x.pattern w found r) :
      Takes (.phrase x) w found r

/-! ## Searches in a session -/

open Session

/-- A search in a session does with the terminals to come what the relation says,
and changes nothing of the lexemes that the session reads. -/
theorem Runs.takes {p : Pattern} {s s' : Session} {found : Bool} (h : Runs p s found s')
    (hs : s.Shaped) : Takes p s.ahead found s'.ahead ∧ s'.Shaped ∧ s'.stream = s.stream := by
  induction h with
  | nothing s => exact ⟨.nothing _, hs, rfl⟩
  | ended s =>
    obtain ⟨hfound, hahead, hshaped, hstream⟩ := ended_spec hs
    rw [hfound, hahead]
    exact ⟨.ended _, hshaped, hstream⟩
  | terminal x s =>
    obtain ⟨hahead, hshaped, hstream⟩ := accept_spec hs x
    refine ⟨?_, hshaped, hstream⟩
    rcases hahead with ⟨hfound, hahead⟩ | ⟨hfound, hhead, hahead⟩
    · rw [hfound, hahead]
      exact .accepted x _
    · rw [hfound, hahead]
      exact .refused hhead
  | sequenceFails _ ih =>
    obtain ⟨ht, hshaped, hstream⟩ := ih hs
    exact ⟨.sequenceFails ht, hshaped, hstream⟩
  | sequence _ _ ih ih' =>
    obtain ⟨ht, hshaped, hstream⟩ := ih hs
    obtain ⟨ht', hshaped', hstream'⟩ := ih' hshaped
    exact ⟨.sequence ht ht', hshaped', hstream'.trans hstream⟩
  | choiceFirst _ ih =>
    obtain ⟨ht, hshaped, hstream⟩ := ih hs
    exact ⟨.choiceFirst ht, hshaped, hstream⟩
  | choiceSecond _ _ ih ih' =>
    obtain ⟨ht, hshaped, hstream⟩ := ih hs
    obtain ⟨ht', hshaped', hstream'⟩ := ih' hshaped
    exact ⟨.choiceSecond ht ht', hshaped', hstream'.trans hstream⟩
  | manyDone _ ih =>
    obtain ⟨ht, hshaped, hstream⟩ := ih hs
    exact ⟨.manyDone ht, hshaped, hstream⟩
  | manyMore _ _ ih ih' =>
    obtain ⟨ht, hshaped, hstream⟩ := ih hs
    obtain ⟨ht', hshaped', hstream'⟩ := ih' hshaped
    exact ⟨.manyMore ht ht', hshaped', hstream'.trans hstream⟩
  | @attemptKept p s s' s'' body kept ih =>
    obtain ⟨ht, hshaped, hstream⟩ := ih hs.mark
    refine ⟨.attemptKept ?_, hshaped.release kept, (stream_release kept).trans hstream⟩
    rw [ahead_release kept]
    exact ht
  | @attemptUndone p s s' s'' body undone ih =>
    obtain ⟨ht, hshaped, hstream⟩ := ih hs.mark
    have hstream' := (stream_rewind undone).trans hstream
    have hsame : s''.ahead = s.ahead := ahead_rewind body.onward.marks_eq undone hstream'
    refine ⟨?_, hshaped.rewind undone, hstream'⟩
    rw [hsame]
    exact .attemptUndone ht
  | phrase _ ih =>
    obtain ⟨ht, hshaped, hstream⟩ := ih hs
    exact ⟨.phrase ht, hshaped, hstream⟩

/-! ## Patterns by their parts -/

variable {p q : Pattern} {w r : List Terminal} {found : Bool}

theorem takes_nothing_iff : Takes .nothing w found r ↔ found = true ∧ r = w := by
  constructor
  · intro h
    cases h
    exact ⟨rfl, rfl⟩
  · rintro ⟨rfl, rfl⟩
    exact .nothing r

theorem takes_ended_iff : Takes .ended w found r ↔ found = w.isEmpty ∧ r = w := by
  constructor
  · intro h
    cases h
    exact ⟨rfl, rfl⟩
  · rintro ⟨rfl, rfl⟩
    exact .ended r

theorem takes_terminal_iff {x : Terminal} : Takes (.terminal x) w found r ↔
    found = true ∧ w = x :: r ∨ found = false ∧ w.head? ≠ some x ∧ r = w := by
  constructor
  · intro h
    cases h with
    | accepted => exact .inl ⟨rfl, rfl⟩
    | refused other => exact .inr ⟨rfl, other, rfl⟩
  · rintro (⟨rfl, rfl⟩ | ⟨rfl, other, rfl⟩)
    · exact .accepted x r
    · exact .refused other

theorem takes_sequence_iff : Takes (.sequence p q) w found r ↔
    found = false ∧ Takes p w false r ∨ ∃ m, Takes p w true m ∧ Takes q m found r := by
  constructor
  · intro h
    cases h with
    | sequenceFails first => exact .inl ⟨rfl, first⟩
    | sequence first second => exact .inr ⟨_, first, second⟩
  · rintro (⟨rfl, first⟩ | ⟨m, first, second⟩)
    · exact .sequenceFails first
    · exact .sequence first second

theorem takes_choice_iff : Takes (.choice p q) w found r ↔
    found = true ∧ Takes p w true r ∨ ∃ m, Takes p w false m ∧ Takes q m found r := by
  constructor
  · intro h
    cases h with
    | choiceFirst first => exact .inl ⟨rfl, first⟩
    | choiceSecond first second => exact .inr ⟨_, first, second⟩
  · rintro (⟨rfl, first⟩ | ⟨m, first, second⟩)
    · exact .choiceFirst first
    · exact .choiceSecond first second

theorem takes_many_iff : Takes (.many p) w found r ↔
    found = true ∧ Takes p w false r ∨ ∃ m, Takes p w true m ∧ Takes (.many p) m found r := by
  constructor
  · intro h
    cases h with
    | manyDone body => exact .inl ⟨rfl, body⟩
    | manyMore body others => exact .inr ⟨_, body, others⟩
  · rintro (⟨rfl, body⟩ | ⟨m, body, others⟩)
    · exact .manyDone body
    · exact .manyMore body others

theorem takes_attempt_iff : Takes (.attempt p) w found r ↔
    found = true ∧ Takes p w true r ∨ found = false ∧ r = w ∧ ∃ m, Takes p w false m := by
  constructor
  · intro h
    cases h with
    | attemptKept body => exact .inl ⟨rfl, body⟩
    | attemptUndone body => exact .inr ⟨rfl, rfl, _, body⟩
  · rintro (⟨rfl, body⟩ | ⟨rfl, rfl, m, body⟩)
    · exact .attemptKept body
    · exact .attemptUndone body

theorem takes_phrase_iff {x : Phrase} :
    Takes (.phrase x) w found r ↔ Takes x.pattern w found r :=
  ⟨fun h => by cases h with | phrase body => exact body, .phrase⟩

/-! ## What is left -/

/-- What is left is an end of the list. -/
theorem Takes.suffix (h : Takes p w found r) : r <:+ w := by
  induction h with
  | nothing | ended | refused | attemptUndone => exact List.suffix_rfl
  | accepted x w => exact List.suffix_cons x w
  | sequenceFails _ ih => exact ih
  | sequence _ _ ih ih' => exact ih'.trans ih
  | choiceFirst _ ih => exact ih
  | choiceSecond _ _ ih ih' => exact ih'.trans ih
  | manyDone _ ih => exact ih
  | manyMore _ _ ih ih' => exact ih'.trans ih
  | attemptKept _ ih => exact ih
  | phrase _ ih => exact ih

/-- Less is left where a pattern is found that has a token in it. -/
theorem Takes.length_lt (h : Takes p w found r) (hf : found = true) (hp : p.reads = true) :
    r.length < w.length := by
  induction h with
  | accepted x w => exact Nat.lt_succ_self w.length
  | refused | sequenceFails | attemptUndone => cases hf
  | nothing | ended | manyDone | manyMore => cases hp
  | sequence first second ih ih' =>
    rcases Bool.or_eq_true _ _ ▸ hp with hp | hq
    · exact Nat.lt_of_le_of_lt second.suffix.length_le (ih rfl hp)
    · exact Nat.lt_of_lt_of_le (ih' hf hq) first.suffix.length_le
  | choiceFirst _ ih => exact ih rfl (Bool.and_eq_true _ _ ▸ hp).1
  | choiceSecond first _ _ ih' =>
    exact Nat.lt_of_lt_of_le (ih' hf (Bool.and_eq_true _ _ ▸ hp).2) first.suffix.length_le
  | attemptKept _ ih => exact ih rfl hp
  | @phrase x _ _ _ _ ih => exact ih hf (x.pattern_reads hp)

end Scriptlet.Pattern
