/-
Scriptlet.Proofs.Program.Balance — speculation is balanced, however deep it nests.

Each phrase that is an attempt (`Phrase.speculative`) is looked for behind a mark.
`Session.Speculated` says what is left of such a search: the marks that were there before,
and no progress at all or some progress. It holds of one search because reading on leaves
the last mark in place (`Pattern.Runs.onward`), and because a phrase that is found has a
token in it.

`Program.balanced` says so of all searches that reading a source makes on its way, and of
the marks before and behind it. Reading may go on where it has stopped before
(`Program.afterReading`).
-/
import Scriptlet.Proofs.Program.Acceptance
import Scriptlet.Proofs.Recognition.Trace

namespace Scriptlet

/-- Whether a phrase is looked for behind a mark. -/
def Phrase.speculative : Phrase → Bool
  | .assignment | .memberAccess | .arguments => true
  | _ => false

theorem Phrase.exists_attempt {x : Phrase} (h : x.speculative = true) :
    x.reads = true ∧ ∃ p, x.pattern = .attempt p := by
  cases x with
  | assignment | memberAccess | arguments => exact ⟨rfl, _, rfl⟩
  | _ => cases h

namespace Session

variable {s s' : Session} {found : Bool}

/-- What a search behind a mark leaves: as many marks as before; the tokens handed out
before and no others if it fails, and these and others if it succeeds. -/
structure Speculated (s : Session) (found : Bool) (s' : Session) : Prop where
  depth_eq : s'.depth = s.depth
  undone : found = false → s'.consumed = s.consumed
  kept : found = true → s.consumed <+: s'.consumed ∧ s.consumed.length < s'.consumed.length

/-- If less is to come, more has been handed out. -/
theorem next_lt_of_ahead (hstream : s'.stream = s.stream)
    (hlt : s'.ahead.length < s.ahead.length) : s.log.next < s'.log.next := by
  refine Nat.lt_of_not_le fun hle => ?_
  have hsub : (s.stream.drop s.log.next).Sublist (s'.stream.drop s'.log.next) := by
    rw [hstream]
    exact List.drop_sublist_drop_left _ hle
  have hge := (hsub.filterMap fun l => l.token.terminal?).length_le
  exact absurd hge (Nat.not_le_of_lt hlt)

theorem consumed_lt (hs : s.Shaped) (hs' : s'.Shaped) (hstream : s'.stream = s.stream)
    (hlt : s.log.next < s'.log.next) :
    s.consumed <+: s'.consumed ∧ s.consumed.length < s'.consumed.length := by
  have hend := next_le_stream hs'.orderly
  rw [consumed_eq hs.orderly, consumed_eq hs'.orderly, hstream]
  rw [hstream] at hend
  refine ⟨(List.take_prefix_take_left (Nat.le_of_lt hlt)).map _, ?_⟩
  simp only [List.length_map, List.length_take]
  omega

theorem speculated_of_runs {x : Phrase} (hx : x.speculative = true) (hs : s.Shaped)
    (h : (Pattern.phrase x).Runs s found s') : s.Speculated found s' := by
  obtain ⟨hreads, p, hp⟩ := Phrase.exists_attempt hx
  obtain ⟨htakes, hs', hstream⟩ := h.takes hs
  refine ⟨congrArg List.length h.onward.marks_eq, ?_, ?_⟩
  · rintro rfl
    cases h with
    | phrase body =>
      rw [hp] at body
      cases body with
      | attemptUndone failed undone =>
        obtain ⟨_, hundone, hnext, -⟩ := failed.onward.rewind_ok
        cases undone.symm.trans hundone
        rw [consumed_eq hs.orderly, consumed_eq hs'.orderly, hstream, hnext]
  · rintro rfl
    have hlt := htakes.length_lt rfl hreads
    exact consumed_lt hs hs' hstream (next_lt_of_ahead hstream hlt)

end Session

namespace Program

/-- The session of a source after so many readings, each of which goes on where the one
before it has stopped. -/
def afterReading (source : String) : Nat → Session
  | 0 => .start .breakout source
  | readings + 1 => (read (afterReading source readings)).2

theorem depth_read (s : Session) : (read s).2.depth = s.depth := by
  have hruns := read_eq_iff.1 (Prod.eta (read s)).symm
  exact congrArg List.length hruns.onward.marks_eq

theorem shaped_read {s : Session} (hs : s.Shaped) :
    (read s).2.Shaped ∧ (read s).2.stream = s.stream :=
  (takes_of_read hs (Prod.eta (read s)).symm).2

/-- However often a source has been read, there are no marks left, and its session goes
over the lexemes of the source. -/
theorem afterReading_sound (source : String) (readings : Nat) :
    (afterReading source readings).Shaped ∧
      (afterReading source readings).stream = (Session.start .breakout source).stream ∧
      (afterReading source readings).depth = 0 := by
  induction readings with
  | zero => exact ⟨Session.shaped_start .breakout source, rfl, rfl⟩
  | succ readings ih =>
    obtain ⟨hs, hstream, hdepth⟩ := ih
    obtain ⟨hs', hstream'⟩ := shaped_read hs
    exact ⟨hs', hstream'.trans hstream, (depth_read _).trans hdepth⟩

/-- Speculation is balanced when a session is read: there are no marks before and behind; on
the way no mark is missing; and wherever a phrase is looked for behind a mark, the search
comes to an answer that leaves what it should. -/
structure Balanced (s : Session) : Prop where
  begins : s.depth = 0
  ends : (read s).2.depth = 0
  marked : ∀ m, (Phrase.program.search s).Reaches m → ∀ e, m.step ≠ .refused e
  speculated : ∀ m, (Phrase.program.search s).Reaches m →
    ∀ x : Phrase, x.speculative = true → m.task = .look (.phrase x) →
      ∃ found s', x.find m.session = .ok (found, s') ∧
        m.Reaches ⟨.answer found, m.frames, s'⟩ ∧ m.session.Speculated found s'

/-- Each reading of a source is balanced, the first and any later one. -/
theorem balanced (source : String) (readings : Nat) : Balanced (afterReading source readings) := by
  obtain ⟨hs, -, hdepth⟩ := afterReading_sound source readings
  refine ⟨hdepth, (depth_read _).trans hdepth, fun m hm => Phrase.step_ne_refused hm, ?_⟩
  intro m hm x hx htask
  obtain ⟨found, s', hfind, hruns, hreaches⟩ := Phrase.find_of_task htask
  obtain ⟨hshaped, -⟩ := hm.shaped hs
  exact ⟨found, s', hfind, hreaches, Session.speculated_of_runs hx hshaped hruns⟩

end Program

end Scriptlet
