/-
Scriptlet.Recognition.Machine — looking for a pattern in constant space of the
host: what is still to be done once a part of the pattern has been looked for is
kept as a list of frames, so that sources may nest as deep as they like.

`Machine.reaches_answer`: the machine does what `Pattern.Runs` says, whatever waits
in its frames. `Phrase.find_eq_ok_iff`: so the search gives the answer of that
relation, and never meets a missing mark.
-/
import Scriptlet.Recognition.Runs

namespace Scriptlet

/-- What is to be done with the answer of a search for a part of a pattern. -/
inductive Frame where
  /-- Look for another pattern if the part was found. -/
  | andThen (second : Pattern)
  /-- Look for another pattern unless the part was found. -/
  | orElse (second : Pattern)
  /-- Look for the part once more if it was found. -/
  | again (body : Pattern)
  /-- Keep what was read if the part was found, and take it back if not. -/
  | settle

/-- What a machine is about to do. -/
inductive Task where
  /-- Look for a pattern. -/
  | look (p : Pattern)
  /-- Give an answer to the frames. -/
  | answer (found : Bool)

/-- A search under way. -/
structure Machine where
  task : Task
  frames : List Frame
  session : Session

namespace Machine

/-- What comes of one step. -/
inductive Step where
  | running (next : Machine)
  | answered (found : Bool) (session : Session)
  | refused (error : MarkError)

/-- The step that goes on with an answer if the session could do what it was
asked to do with its last mark. -/
def Step.ofMark (found : Bool) (frames : List Frame) : Except MarkError Session → Step
  | .ok session => .running ⟨.answer found, frames, session⟩
  | .error e => .refused e

/-- Begins to look for a pattern. -/
def look (p : Pattern) (frames : List Frame) (session : Session) : Machine :=
  match p with
  | .nothing => ⟨.answer true, frames, session⟩
  | .ended =>
    let (found, session) := session.ended
    ⟨.answer found, frames, session⟩
  | .terminal x =>
    let (found, session) := session.accept x
    ⟨.answer found, frames, session⟩
  | .sequence p q => ⟨.look p, .andThen q :: frames, session⟩
  | .choice p q => ⟨.look p, .orElse q :: frames, session⟩
  | .many p => ⟨.look p, .again p :: frames, session⟩
  | .attempt p => ⟨.look p, .settle :: frames, session.mark⟩
  | .phrase x => ⟨.look x.pattern, frames, session⟩

/-- Gives an answer to the first frame. -/
def resume (found : Bool) (frames : List Frame) (session : Session) : Step :=
  match frames with
  | [] => .answered found session
  | .andThen q :: frames =>
    .running (if found then ⟨.look q, frames, session⟩ else ⟨.answer false, frames, session⟩)
  | .orElse q :: frames =>
    .running (if found then ⟨.answer true, frames, session⟩ else ⟨.look q, frames, session⟩)
  | .again p :: frames =>
    .running (if found then ⟨.look (.many p), frames, session⟩
      else ⟨.answer true, frames, session⟩)
  | .settle :: frames =>
    .ofMark found frames (if found then session.release else session.rewind)

/-- One step. -/
def step (m : Machine) : Step :=
  match m with
  | ⟨.look p, frames, session⟩ => .running (look p frames session)
  | ⟨.answer found, frames, session⟩ => resume found frames session

/-! ## Runs of the machine -/

/-- One machine is what another becomes in one step. -/
def Follows (m' m : Machine) : Prop :=
  m.step = .running m'

/-- The machine stops after finitely many steps. -/
def Halts (m : Machine) : Prop :=
  Acc Follows m

/-- A machine halts if the one that it becomes does. -/
theorem Halts.of_step {m m' : Machine} (hs : m.step = .running m') (h : m'.Halts) : m.Halts :=
  ⟨_, fun m'' hs' => by
    cases (Step.running.inj (hs.symm.trans hs'))
    exact h⟩

/-- A machine without a next one halts. -/
theorem Halts.of_stopped {m : Machine} (h : ∀ m', m.step ≠ .running m') : m.Halts :=
  ⟨_, fun m' hs => absurd hs (h m')⟩

/-- Machines that halt may be run step by step. -/
instance : WellFoundedRelation {m : Machine // m.Halts} where
  rel a b := Follows a.1 b.1
  wf := ⟨fun ⟨m, h⟩ => by
    induction h with
    | intro m _ ih => exact ⟨_, fun ⟨m', h'⟩ hs => ih m' hs⟩⟩

/-- Runs a machine that halts until it has an answer. -/
def run (m : Machine) (h : m.Halts) : Except MarkError (Bool × Session) :=
  match hs : m.step with
  | .running m' => run m' (h.inv hs)
  | .answered found session => .ok (found, session)
  | .refused e => .error e
termination_by (⟨m, h⟩ : {m : Machine // m.Halts})

/-- One machine becomes another in some number of steps. -/
inductive Reaches : Machine → Machine → Prop where
  | refl (m : Machine) : Reaches m m
  | step {m m' m'' : Machine} (first : m.step = .running m') (others : Reaches m' m'') :
      Reaches m m''

/-- What becomes of a machine that another becomes, becomes of the other. -/
theorem Reaches.trans {m m' m'' : Machine} (h : Reaches m m') (h' : Reaches m' m'') :
    Reaches m m'' := by
  induction h with
  | refl => exact h'
  | step first _ ih => exact .step first (ih h')

/-- A machine that becomes one that halts does so itself. -/
theorem Reaches.halts {m m' : Machine} (h : Reaches m m') (h' : m'.Halts) : m.Halts := by
  induction h with
  | refl => exact h'
  | step first _ ih => exact .of_step first (ih h')

/-- A run may be picked up at any machine on its way. -/
theorem Reaches.run_eq {m m' : Machine} (hr : Reaches m m') (h : m.Halts) (h' : m'.Halts) :
    m.run h = m'.run h' := by
  induction hr with
  | refl => rfl
  | step first _ ih =>
    rw [run]
    split
    · next hs =>
      cases first.symm.trans hs
      exact ih _ h'
    · next hs => cases first.symm.trans hs
    · next hs => cases first.symm.trans hs

/-- The machine does what the relation says, whatever waits in its frames. -/
theorem reaches_answer {p : Pattern} {s s' : Session} {found : Bool}
    (h : p.Runs s found s') (frames : List Frame) :
    Reaches ⟨.look p, frames, s⟩ ⟨.answer found, frames, s'⟩ := by
  induction h generalizing frames with
  | nothing => exact .step rfl (.refl _)
  | ended => exact .step rfl (.refl _)
  | terminal => exact .step rfl (.refl _)
  | sequenceFails _ ih => exact .step rfl ((ih _).trans (.step rfl (.refl _)))
  | sequence _ _ ih ih' => exact .step rfl ((ih _).trans (.step rfl (ih' _)))
  | choiceFirst _ ih => exact .step rfl ((ih _).trans (.step rfl (.refl _)))
  | choiceSecond _ _ ih ih' => exact .step rfl ((ih _).trans (.step rfl (ih' _)))
  | manyDone _ ih => exact .step rfl ((ih _).trans (.step rfl (.refl _)))
  | manyMore _ _ ih ih' => exact .step rfl ((ih _).trans (.step rfl (ih' _)))
  | attemptKept _ kept ih =>
    exact .step rfl ((ih _).trans (.step (by simp [step, resume, kept, Step.ofMark]) (.refl _)))
  | attemptUndone _ undone ih =>
    exact .step rfl ((ih _).trans (.step (by simp [step, resume, undone, Step.ofMark]) (.refl _)))
  | phrase _ ih => exact .step rfl (ih _)

/-- A machine with an answer and no frames has stopped. -/
theorem halts_answer (found : Bool) (s : Session) : Halts ⟨.answer found, [], s⟩ :=
  .of_stopped fun _ h => by cases h

/-- A search for a phrase halts. -/
theorem halts_phrase (x : Phrase) (s : Session) : Halts ⟨.look (.phrase x), [], s⟩ := by
  obtain ⟨found, s', h⟩ := x.runs_total s
  exact (reaches_answer h []).halts (halts_answer found s')

end Machine

/-! ## Looking for a phrase -/

namespace Phrase

/-- Looks for a phrase in a session: whether it is there, and the session behind
what was read. -/
def find (x : Phrase) (s : Session) : Except MarkError (Bool × Session) :=
  Machine.run ⟨.look (.phrase x), [], s⟩ (Machine.halts_phrase x s)

/-- The search has the outcome that the relation gives. -/
theorem find_eq_of_runs {x : Phrase} {s s' : Session} {found : Bool}
    (h : (Pattern.phrase x).Runs s found s') : x.find s = .ok (found, s') := by
  rw [find, (Machine.reaches_answer h []).run_eq _ (Machine.halts_answer found s'), Machine.run]
  rfl

/-- The search has exactly the outcomes of the relation; a missing mark is never
met. -/
theorem find_eq_ok_iff {x : Phrase} {s s' : Session} {found : Bool} :
    x.find s = .ok (found, s') ↔ (Pattern.phrase x).Runs s found s' := by
  refine ⟨fun h => ?_, find_eq_of_runs⟩
  obtain ⟨_, _, hr⟩ := x.runs_total s
  cases (find_eq_of_runs hr).symm.trans h
  exact hr

/-- A search never meets a missing mark. -/
theorem find_ne_error (x : Phrase) (s : Session) (e : MarkError) : x.find s ≠ .error e := by
  obtain ⟨_, _, hr⟩ := x.runs_total s
  simp [find_eq_of_runs hr]

end Phrase

end Scriptlet
