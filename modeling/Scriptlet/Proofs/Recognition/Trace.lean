/-
Scriptlet.Proofs.Recognition.Trace — the machines that a search passes through.

`Machine.trace` lists them, and `Machine.mem_trace_iff` says that they are the machines
that the first one becomes. A part of a run is described by `Machine.Passes`; parts are put
together by `Passes.trans`, and `Passes.trace_eq` takes a part off the list.

* `Machine.Reaches.shaped` — the session goes over the same lexemes all the way;
* `Machine.Nested` — a machine lies on the way of another one to its answer. What happens on
  this way does not depend on the frames that wait for the answer (`Nested.exists_alone`);
* `Phrase.step_ne_refused` — on the way of a search no mark is missing;
* `Phrase.reaches_answer` — whatever has been begun comes to an answer.
-/
import Scriptlet.Proofs.Recognition.Takes
import Scriptlet.Recognition.Machine

namespace Scriptlet

namespace Machine

variable {m m' m'' : Machine}

/-! ## The list of machines -/

/-- The machines of a run, from the first to the one that takes no further step. -/
def trace (m : Machine) (h : m.Halts) : List Machine :=
  match hs : m.step with
  | .running m' => m :: trace m' (h.inv hs)
  | .answered _ _ | .refused _ => [m]
termination_by (⟨m, h⟩ : {m : Machine // m.Halts})

theorem trace_of_running (hs : m.step = .running m') (h : m.Halts) (h' : m'.Halts) :
    m.trace h = m :: m'.trace h' := by
  rw [trace]
  split
  · next hs' =>
    cases hs.symm.trans hs'
    rfl
  · next hs' => cases hs.symm.trans hs'
  · next hs' => cases hs.symm.trans hs'

theorem trace_answer (found : Bool) (s : Session) (h : Halts ⟨.answer found, [], s⟩) :
    trace ⟨.answer found, [], s⟩ h = [⟨.answer found, [], s⟩] := by
  rw [trace]
  rfl

theorem mem_trace_self (h : m.Halts) : m ∈ m.trace h := by
  rw [trace]
  split <;> exact List.mem_cons_self

theorem Reaches.halts_end (hr : m.Reaches m') (h : m.Halts) : m'.Halts := by
  induction hr with
  | refl => exact h
  | step first _ ih => exact ih (h.inv first)

/-- A run passes through the machines that the first one becomes. -/
theorem mem_trace_iff (h : m.Halts) : m' ∈ m.trace h ↔ m.Reaches m' := by
  constructor
  · fun_induction trace m h with
    | case1 m h next hs ih =>
      intro hmem
      rcases List.mem_cons.1 hmem with rfl | hmem
      · exact .refl _
      · exact .step hs (ih hmem)
    | case2 m =>
      intro hmem
      rw [List.mem_singleton.1 hmem]
      exact .refl m
    | case3 m =>
      intro hmem
      rw [List.mem_singleton.1 hmem]
      exact .refl m
  · intro hr
    induction hr with
    | refl => exact mem_trace_self h
    | step first others ih =>
      rw [trace_of_running first h (h.inv first)]
      exact List.mem_cons_of_mem _ (ih _)

/-- A run goes through these machines, one step after the other, before it comes to the
last one. -/
inductive Passes : Machine → List Machine → Machine → Prop where
  | refl (m : Machine) : Passes m [] m
  | step {m m' m'' : Machine} {ms : List Machine} (first : m.step = .running m')
      (others : Passes m' ms m'') : Passes m (m :: ms) m''

namespace Passes

variable {ms ms' : List Machine}

theorem trans (h : Passes m ms m') (h' : Passes m' ms' m'') : Passes m (ms ++ ms') m'' := by
  induction h with
  | refl => exact h'
  | step first _ ih => exact .step first (ih h')

theorem trace_eq (hp : Passes m ms m') (h : m.Halts) (h' : m'.Halts) :
    m.trace h = ms ++ m'.trace h' := by
  induction hp with
  | refl => rfl
  | step first _ ih =>
    rw [trace_of_running first h (h.inv first), ih (h.inv first) h']
    rfl

end Passes

/-! ## The session on the way -/

theorem run_of_refused {e : MarkError} (hs : m.step = .refused e) (h : m.Halts) :
    m.run h = .error e := by
  rw [run]
  split
  · next hs' => cases hs.symm.trans hs'
  · next hs' => cases hs.symm.trans hs'
  · next hs' =>
    cases hs.symm.trans hs'
    rfl

/-- A machine that gives its answer has one frame less; its session is the same, or has its
last mark taken away in one of the two ways. -/
theorem resume_cases {found : Bool} {frames : List Frame} {s : Session}
    (hs : resume found frames s = .running m) :
    (∃ frame, frames = frame :: m.frames) ∧
      (m.session = s ∨ s.release = .ok m.session ∨ s.rewind = .ok m.session) := by
  cases frames with
  | nil => cases hs
  | cons frame frames =>
    cases frame with
    | andThen q | orElse q | again q => cases found <;> cases hs <;> exact ⟨⟨_, rfl⟩, .inl rfl⟩
    | settle =>
      change Step.ofMark found frames _ = .running m at hs
      unfold Step.ofMark at hs
      split at hs
      · next s' hmark =>
        cases hs
        refine ⟨⟨_, rfl⟩, .inr ?_⟩
        cases found with
        | true => exact .inl hmark
        | false => exact .inr hmark
      · cases hs

theorem look_shaped {s : Session} (h : s.Shaped) (p : Pattern) (frames : List Frame) :
    (look p frames s).session.Shaped ∧ (look p frames s).session.stream = s.stream := by
  cases p with
  | ended => exact (Session.ended_spec h).2.2
  | terminal x => exact (Session.accept_spec h x).2
  | attempt p => exact ⟨h.mark, rfl⟩
  | nothing | sequence | choice | many | phrase => exact ⟨h, rfl⟩

/-- A step leaves the lexemes as they are. -/
theorem step_shaped (hs : m.step = .running m') (h : m.session.Shaped) :
    m'.session.Shaped ∧ m'.session.stream = m.session.stream := by
  obtain ⟨task, frames, s⟩ := m
  cases task with
  | look p =>
    cases hs
    exact look_shaped h p frames
  | answer found =>
    rcases (resume_cases hs).2 with hsame | hrelease | hrewind
    · rw [hsame]
      exact ⟨h, rfl⟩
    · exact ⟨h.release hrelease, Session.stream_release hrelease⟩
    · exact ⟨h.rewind hrewind, Session.stream_rewind hrewind⟩

theorem Reaches.shaped (hr : m.Reaches m') (h : m.session.Shaped) :
    m'.session.Shaped ∧ m'.session.stream = m.session.stream := by
  induction hr with
  | refl => exact ⟨h, rfl⟩
  | step first _ ih =>
    obtain ⟨hshaped, hstream⟩ := step_shaped first h
    obtain ⟨hshaped', hstream'⟩ := ih hshaped
    exact ⟨hshaped', hstream'.trans hstream⟩

/-! ## Frames below -/

/-- The machine with further frames that wait for its answer. -/
def above (m : Machine) (below : List Frame) : Machine :=
  ⟨m.task, m.frames ++ below, m.session⟩

/-- The machine without the frames that wait for its answer. -/
def alone (m : Machine) : Machine :=
  ⟨m.task, [], m.session⟩

/-- What comes of a step if there are further frames below. -/
def Step.above (below : List Frame) : Step → Step
  | .running next => .running (next.above below)
  | .answered found s => .answered found s
  | .refused e => .refused e

theorem ofMark_above (found : Bool) (frames below : List Frame)
    (outcome : Except MarkError Session) :
    Step.ofMark found (frames ++ below) outcome =
      (Step.ofMark found frames outcome).above below := by
  cases outcome <;> rfl

/-- Unless a machine has an answer for the frames below, they play no part in its step. -/
theorem answers_or_step_above (m : Machine) (below : List Frame) :
    (∃ found s, m = ⟨.answer found, [], s⟩) ∨ (m.above below).step = m.step.above below := by
  obtain ⟨task, frames, s⟩ := m
  cases task with
  | look p => cases p <;> exact .inr rfl
  | answer found =>
    cases frames with
    | nil => exact .inl ⟨found, s, rfl⟩
    | cons frame frames =>
      right
      cases frame with
      | andThen q | orElse q | again q => cases found <;> rfl
      | settle => exact ofMark_above ..

theorem step_above (hs : m.step = .running m') (below : List Frame) :
    (m.above below).step = .running (m'.above below) := by
  rcases answers_or_step_above m below with ⟨found, s, rfl⟩ | habove
  · cases hs
  · rw [habove, hs]
    rfl

theorem Reaches.above (hr : m.Reaches m') (below : List Frame) :
    (m.above below).Reaches (m'.above below) := by
  induction hr with
  | refl => exact .refl _
  | step first _ ih => exact .step (step_above first below) ih

/-- If the whole run ends, so does the part of it that the frames below wait for. -/
theorem Halts.of_above {below : List Frame} (h : (m.above below).Halts) : m.Halts := by
  generalize hm : m.above below = whole at h
  induction h generalizing m with
  | intro whole _ ih =>
    subst hm
    exact ⟨_, fun m' hs => ih _ (step_above hs below) rfl⟩

theorem eq_of_answered {found : Bool} {s : Session} (hs : m.step = .answered found s) :
    m = ⟨.answer found, [], s⟩ := by
  obtain ⟨task, frames, s'⟩ := m
  cases task with
  | look p => cases hs
  | answer found' =>
    cases frames with
    | nil =>
      cases hs
      rfl
    | cons frame frames =>
      cases frame with
      | andThen q | orElse q | again q => cases found' <;> cases hs
      | settle =>
        change Step.ofMark found' frames _ = .answered found s at hs
        unfold Step.ofMark at hs
        split at hs <;> cases hs

theorem Halts.exists_stopped (h : m.Halts) :
    ∃ m', m.Reaches m' ∧ ∀ next, m'.step ≠ .running next := by
  induction h with
  | intro m _ ih =>
    by_cases hm : ∃ next, m.step = .running next
    · obtain ⟨next, hs⟩ := hm
      obtain ⟨m', hreaches, hstopped⟩ := ih next hs
      exact ⟨m', .step hs hreaches, hstopped⟩
    · exact ⟨m, .refl m, fun next hs => hm ⟨next, hs⟩⟩

/-- A step that leaves the frames below in place is made without them. -/
theorem exists_of_step_above {below : List Frame} (hs : (m.above below).step = .running m'')
    (kept : below <:+ m''.frames) : ∃ m', m.step = .running m' ∧ m'' = m'.above below := by
  rcases answers_or_step_above m below with ⟨found, s, rfl⟩ | habove
  · obtain ⟨⟨frame, hframes⟩, -⟩ := resume_cases hs
    rw [show below = frame :: m''.frames from hframes] at kept
    exact absurd kept.length_le (Nat.not_succ_le_self _)
  · rw [habove] at hs
    cases hm : m.step with
    | running m' =>
      rw [hm] at hs
      cases hs
      exact ⟨m', rfl, rfl⟩
    | answered => rw [hm] at hs; cases hs
    | refused => rw [hm] at hs; cases hs

/-- The second machine lies on the way of the first one to its answer: the frames that wait
for this answer are still there, and have been all the time. -/
inductive Nested (m : Machine) : Machine → Prop where
  | first {m' : Machine} (step : m.step = .running m') (kept : m.frames <:+ m'.frames) :
      Nested m m'
  | next {m' m'' : Machine} (before : Nested m m') (step : m'.step = .running m'')
      (kept : m.frames <:+ m''.frames) : Nested m m''

/-- On its way to the answer a machine does what it does alone. -/
theorem Nested.exists_alone (h : m.Nested m') :
    ∃ first inner, m.alone.step = .running first ∧ first.Reaches inner ∧
      m' = inner.above m.frames := by
  induction h with
  | first step kept =>
    obtain ⟨first, hfirst, rfl⟩ := exists_of_step_above (m := m.alone) step kept
    exact ⟨first, first, hfirst, .refl first, rfl⟩
  | next _ step kept ih =>
    obtain ⟨first, inner, hfirst, hreaches, rfl⟩ := ih
    obtain ⟨inner', hinner, rfl⟩ := exists_of_step_above step kept
    exact ⟨first, inner', hfirst, hreaches.trans (.step hinner (.refl inner')), rfl⟩

end Machine

/-! ## Searches for phrases -/

namespace Phrase

variable {x : Phrase} {s : Session} {m : Machine}

/-- The machine that looks for a phrase in a session. -/
def search (x : Phrase) (s : Session) : Machine :=
  ⟨.look (.phrase x), [], s⟩

theorem halts_search (x : Phrase) (s : Session) : (x.search s).Halts :=
  Machine.halts_phrase x s

/-- A missing mark would be the outcome of the whole search. -/
theorem step_ne_refused (h : (x.search s).Reaches m) (e : MarkError) : m.step ≠ .refused e := by
  intro hs
  have hm := h.halts_end (x.halts_search s)
  have hrun := h.run_eq (x.halts_search s) hm
  rw [Machine.run_of_refused hs hm] at hrun
  exact x.find_ne_error s e hrun

/-- Whatever a search has begun comes to an answer for the frames that wait for it. -/
theorem reaches_answer (h : (x.search s).Reaches m) :
    ∃ found s', m.Reaches ⟨.answer found, m.frames, s'⟩ := by
  have hwhole : (m.alone.above m.frames).Halts := h.halts_end (x.halts_search s)
  have halone := hwhole.of_above
  obtain ⟨last, hlast, hstopped⟩ := halone.exists_stopped
  have hreaches : m.Reaches (last.above m.frames) := hlast.above m.frames
  have hrefused := step_ne_refused (h.trans hreaches)
  rcases Machine.answers_or_step_above last m.frames with ⟨found, s', rfl⟩ | habove
  · exact ⟨found, s', hreaches⟩
  · cases hstep : last.step with
    | running next => exact absurd hstep (hstopped next)
    | answered found s' =>
      obtain rfl := Machine.eq_of_answered hstep
      exact ⟨found, s', hreaches⟩
    | refused e =>
      rw [hstep] at habove
      exact absurd habove (hrefused e)

/-- A phrase that is looked for on the way of a search is answered as if it was looked for
alone. -/
theorem find_of_task (hm : m.task = .look (.phrase x)) :
    ∃ found s', x.find m.session = .ok (found, s') ∧
      (Pattern.phrase x).Runs m.session found s' ∧ m.Reaches ⟨.answer found, m.frames, s'⟩ := by
  obtain ⟨found, s', hruns⟩ := x.runs_total m.session
  obtain ⟨task, frames, s⟩ := m
  cases hm
  exact ⟨found, s', find_eq_of_runs hruns, hruns, Machine.reaches_answer hruns frames⟩

end Phrase

end Scriptlet
