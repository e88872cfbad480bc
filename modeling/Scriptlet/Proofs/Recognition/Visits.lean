/-
Scriptlet.Proofs.Recognition.Visits — where a search looks for expressions.

Expressions are what nests, so it is they that a search might look for again and again. The
relation `Pattern.Visits` has the clauses of `Pattern.Takes` and keeps a record: how many
terminals were to come each time that an expression was looked for. What an attempt takes
back stays in the record.

The `visits_…` lemmas take a composed pattern apart. `Pattern.quiet` tells the patterns in
which no expression is looked for.
-/
import Scriptlet.Proofs.Recognition.Takes

namespace Scriptlet

/-- What looking for a phrase adds to the record. -/
def Phrase.visit (x : Phrase) (w : List Terminal) : List Nat :=
  if x = .expression then [w.length] else []

namespace Pattern

/-- Looking for a pattern in a list ends with this answer before the rest of it, and on the
way expressions are looked for where so many terminals are to come. -/
inductive Visits : Pattern → List Terminal → Bool → List Terminal → List Nat → Prop where
  | nothing (w : List Terminal) : Visits .nothing w true w []
  | ended (w : List Terminal) : Visits .ended w w.isEmpty w []
  | accepted (x : Terminal) (w : List Terminal) : Visits (.terminal x) (x :: w) true w []
  | refused {x : Terminal} {w : List Terminal} (other : w.head? ≠ some x) :
      Visits (.terminal x) w false w []
  | sequenceFails {p q : Pattern} {w r : List Terminal} {visits : List Nat}
      (first : Visits p w false r visits) : Visits (.sequence p q) w false r visits
  | sequence {p q : Pattern} {w m r : List Terminal} {found : Bool} {before behind : List Nat}
      (first : Visits p w true m before) (second : Visits q m found r behind) :
      Visits (.sequence p q) w found r (before ++ behind)
  | choiceFirst {p q : Pattern} {w r : List Terminal} {visits : List Nat}
      (first : Visits p w true r visits) : Visits (.choice p q) w true r visits
  | choiceSecond {p q : Pattern} {w m r : List Terminal} {found : Bool}
      {before behind : List Nat} (first : Visits p w false m before)
      (second : Visits q m found r behind) : Visits (.choice p q) w found r (before ++ behind)
  | manyDone {p : Pattern} {w r : List Terminal} {visits : List Nat}
      (body : Visits p w false r visits) : Visits (.many p) w true r visits
  | manyMore {p : Pattern} {w m r : List Terminal} {found : Bool} {before behind : List Nat}
      (body : Visits p w true m before) (others : Visits (.many p) m found r behind) :
      Visits (.many p) w found r (before ++ behind)
  | attemptKept {p : Pattern} {w r : List Terminal} {visits : List Nat}
      (body : Visits p w true r visits) : Visits (.attempt p) w true r visits
  | attemptUndone {p : Pattern} {w m : List Terminal} {visits : List Nat}
      (body : Visits p w false m visits) : Visits (.attempt p) w false w visits
  | phrase {x : Phrase} {w r : List Terminal} {found : Bool} {visits : List Nat}
      (body : Visits x.pattern w found r visits) :
      Visits (.phrase x) w found r (x.visit w ++ visits)

variable {p q : Pattern} {x : Terminal} {w r : List Terminal} {found : Bool} {visits : List Nat}

/-- Without its record it is the search that it was. -/
theorem Visits.takes (h : Visits p w found r visits) : Takes p w found r := by
  induction h with
  | nothing w => exact .nothing w
  | ended w => exact .ended w
  | accepted x w => exact .accepted x w
  | refused other => exact .refused other
  | sequenceFails _ ih => exact .sequenceFails ih
  | sequence _ _ ih ih' => exact .sequence ih ih'
  | choiceFirst _ ih => exact .choiceFirst ih
  | choiceSecond _ _ ih ih' => exact .choiceSecond ih ih'
  | manyDone _ ih => exact .manyDone ih
  | manyMore _ _ ih ih' => exact .manyMore ih ih'
  | attemptKept _ ih => exact .attemptKept ih
  | attemptUndone _ ih => exact .attemptUndone ih
  | phrase _ ih => exact .phrase ih

/-! ## Patterns by their parts -/

theorem visits_sequence (h : Visits (.sequence p q) w found r visits) :
    found = false ∧ Visits p w false r visits ∨
      ∃ m before behind, visits = before ++ behind ∧ Visits p w true m before ∧
        Visits q m found r behind := by
  cases h with
  | sequenceFails first => exact .inl ⟨rfl, first⟩
  | sequence first second => exact .inr ⟨_, _, _, rfl, first, second⟩

theorem visits_choice (h : Visits (.choice p q) w found r visits) :
    found = true ∧ Visits p w true r visits ∨
      ∃ m before behind, visits = before ++ behind ∧ Visits p w false m before ∧
        Visits q m found r behind := by
  cases h with
  | choiceFirst first => exact .inl ⟨rfl, first⟩
  | choiceSecond first second => exact .inr ⟨_, _, _, rfl, first, second⟩

theorem visits_many (h : Visits (.many p) w found r visits) :
    found = true ∧ Visits p w false r visits ∨
      ∃ m before behind, visits = before ++ behind ∧ Visits p w true m before ∧
        Visits (.many p) m found r behind := by
  cases h with
  | manyDone body => exact .inl ⟨rfl, body⟩
  | manyMore body others => exact .inr ⟨_, _, _, rfl, body, others⟩

theorem visits_attempt (h : Visits (.attempt p) w found r visits) :
    found = true ∧ Visits p w true r visits ∨
      found = false ∧ r = w ∧ ∃ m, Visits p w false m visits := by
  cases h with
  | attemptKept body => exact .inl ⟨rfl, body⟩
  | attemptUndone body => exact .inr ⟨rfl, rfl, _, body⟩

theorem visits_phrase {name : Phrase} (hname : name ≠ .expression)
    (h : Visits (.phrase name) w found r visits) : Visits name.pattern w found r visits := by
  cases h with
  | phrase body =>
    rw [Phrase.visit, if_neg hname]
    exact body

theorem visits_expression (h : Visits (.phrase .expression) w found r visits) :
    ∃ inner, visits = w.length :: inner ∧ Visits Phrase.expression.pattern w found r inner := by
  cases h with
  | phrase body => exact ⟨_, rfl, body⟩

theorem visits_terminal (h : Visits (.terminal x) w found r visits) :
    visits = [] ∧ (found = true ∧ w = x :: r ∨ found = false ∧ w.head? ≠ some x ∧ r = w) := by
  cases h with
  | accepted => exact ⟨rfl, .inl ⟨rfl, rfl⟩⟩
  | refused other => exact ⟨rfl, .inr ⟨rfl, other, rfl⟩⟩

/-- One terminal and then a pattern. -/
theorem visits_terminal_then (h : Visits (.sequence (.terminal x) q) w found r visits) :
    found = false ∧ w.head? ≠ some x ∧ r = w ∧ visits = [] ∨
      ∃ m, w = x :: m ∧ Visits q m found r visits := by
  rcases visits_sequence h with ⟨rfl, first⟩ | ⟨m, before, behind, rfl, first, second⟩
  · obtain ⟨hnil, hrefused⟩ := visits_terminal first
    obtain ⟨-, hhead, rfl⟩ := hrefused.resolve_left (by simp)
    exact .inl ⟨rfl, hhead, rfl, hnil⟩
  · obtain ⟨rfl, haccepted⟩ := visits_terminal first
    obtain ⟨-, rfl⟩ := haccepted.resolve_right (by simp)
    exact .inr ⟨m, rfl, second⟩

/-- One terminal or else a pattern. -/
theorem visits_terminal_or (h : Visits (.choice (.terminal x) q) w found r visits) :
    found = true ∧ w = x :: r ∧ visits = [] ∨
      w.head? ≠ some x ∧ Visits q w found r visits := by
  rcases visits_choice h with ⟨rfl, first⟩ | ⟨m, before, behind, rfl, first, second⟩
  · obtain ⟨hnil, haccepted⟩ := visits_terminal first
    obtain ⟨-, rfl⟩ := haccepted.resolve_right (by simp)
    exact .inl ⟨rfl, rfl, hnil⟩
  · obtain ⟨rfl, hrefused⟩ := visits_terminal first
    obtain ⟨-, hhead, rfl⟩ := hrefused.resolve_left (by simp)
    exact .inr ⟨hhead, second⟩

end Pattern

/-! ## Where no expression is looked for -/

/-- Whether a phrase is looked for without looking for an expression. -/
def Phrase.quiet : Phrase → Bool
  | .operand | .memberChain | .memberAccess => true
  | _ => false

/-- Whether a pattern is looked for without looking for an expression. -/
def Pattern.quiet : Pattern → Bool
  | .nothing | .ended | .terminal _ => true
  | .sequence p q | .choice p q => p.quiet && q.quiet
  | .many p | .attempt p => p.quiet
  | .phrase x => x.quiet

theorem Phrase.pattern_quiet {x : Phrase} (h : x.quiet = true) :
    x.pattern.quiet = true ∧ x ≠ .expression := by
  cases x <;> first | exact ⟨rfl, by simp⟩ | cases h

theorem Pattern.Visits.eq_nil_of_quiet {p : Pattern} {w r : List Terminal} {found : Bool}
    {visits : List Nat} (h : Visits p w found r visits) (hp : p.quiet = true) : visits = [] := by
  induction h with
  | nothing | ended | accepted | refused => rfl
  | sequenceFails _ ih | choiceFirst _ ih => exact ih (Bool.and_eq_true _ _ ▸ hp).1
  | sequence _ _ ih ih' | choiceSecond _ _ ih ih' =>
    obtain ⟨hp, hq⟩ := Bool.and_eq_true _ _ ▸ hp
    rw [ih hp, ih' hq]
    rfl
  | manyDone _ ih | attemptKept _ ih | attemptUndone _ ih => exact ih hp
  | manyMore _ _ ih ih' =>
    rw [ih hp, ih' hp]
    rfl
  | @phrase x _ _ _ _ _ ih =>
    obtain ⟨hquiet, hx⟩ := x.pattern_quiet hp
    rw [Phrase.visit, if_neg hx, ih hquiet]
    rfl

end Scriptlet
