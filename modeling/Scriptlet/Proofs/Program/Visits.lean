/-
Scriptlet.Proofs.Program.Visits — reading a source looks for an expression at most once at
each place, whatever it takes back.

A place is counted in significant tokens (`Session.passed`), and the places come from the
machines that the search passes through (`Machine.trace`). `Pattern.Runs.records` takes
the record of `Pattern.Visits` back to these machines: they look for an expression exactly
where the record says. So what is known of the record (`Scriptlet.Proofs.Recognition.Once`)
is known of them.

`Program.visits_once` also says that an expression inside another one begins at least two
significant tokens behind it, and that everything that the search begins is brought to an
end.
-/
import Mathlib.Data.List.Perm.Subperm
import Scriptlet.Proofs.Program.Balance
import Scriptlet.Proofs.Recognition.Once

namespace Scriptlet

/-- Whether the machine is about to look for the phrase. -/
def Machine.enters (m : Machine) (x : Phrase) : Bool :=
  match m.task with
  | .look p => p == .phrase x
  | .answer _ => false

namespace Machine

variable {m m' m'' : Machine} {visits before behind : List Nat}

/-- How many terminals are to come for each machine that is about to look for an expression. -/
def entries (ms : List Machine) : List Nat :=
  (ms.filter (enters · .expression)).map fun m => m.session.ahead.length

theorem entries_append (ms ms' : List Machine) :
    entries (ms ++ ms') = entries ms ++ entries ms' := by
  rw [entries, List.filter_append, List.map_append]
  rfl

theorem entries_cons_of_not {m : Machine} (h : m.enters .expression = false) (ms : List Machine) :
    entries (m :: ms) = entries ms := by
  rw [entries, List.filter_cons_of_neg (by simp [h])]
  rfl

theorem entries_cons_of_enters {m : Machine} (h : m.enters .expression = true)
    (ms : List Machine) : entries (m :: ms) = m.session.ahead.length :: entries ms := by
  rw [entries, List.filter_cons_of_pos (by exact h)]
  rfl

theorem mem_entries {ms : List Machine} (hm : m ∈ ms) (h : m.enters .expression = true) :
    m.session.ahead.length ∈ entries ms :=
  List.mem_map_of_mem (List.mem_filter.2 ⟨hm, h⟩)

/-- A machine that is about to look for a phrase begins a search for it. -/
theorem alone_of_enters {x : Phrase} (h : m.enters x = true) : m.alone = x.search m.session := by
  obtain ⟨task, frames, s⟩ := m
  cases task with
  | look p =>
    obtain rfl : p = .phrase x := eq_of_beq h
    rfl
  | answer found => cases h

/-- Some steps lead from one machine to another and enter expressions as the record says. -/
def Records (m : Machine) (visits : List Nat) (m' : Machine) : Prop :=
  ∃ ms, Passes m ms m' ∧ entries ms = visits

namespace Records

theorem refl (m : Machine) : Records m [] m :=
  ⟨[], .refl m, rfl⟩

theorem trans (h : Records m before m') (h' : Records m' behind m'') :
    Records m (before ++ behind) m'' := by
  obtain ⟨ms, hpasses, rfl⟩ := h
  obtain ⟨ms', hpasses', rfl⟩ := h'
  exact ⟨ms ++ ms', hpasses.trans hpasses', entries_append ms ms'⟩

/-- A step that enters no expression. -/
theorem step (hm : m.enters .expression = false) (first : m.step = .running m')
    (h : Records m' visits m'') : Records m visits m'' := by
  obtain ⟨ms, hpasses, rfl⟩ := h
  exact ⟨m :: ms, .step first hpasses, entries_cons_of_not hm ms⟩

theorem concat (h : Records m visits m') (hm : m'.enters .expression = false)
    (last : m'.step = .running m'') : Records m visits m'' := by
  have := h.trans (.step hm last (.refl m''))
  rwa [List.append_nil] at this

theorem phrase {x : Phrase} {frames : List Frame} {s : Session}
    (h : Records ⟨.look x.pattern, frames, s⟩ visits m') :
    Records ⟨.look (.phrase x), frames, s⟩ (x.visit s.ahead ++ visits) m' := by
  obtain ⟨ms, hpasses, rfl⟩ := h
  refine ⟨_ :: ms, .step rfl hpasses, ?_⟩
  by_cases hx : x = .expression
  · subst hx
    rfl
  · rw [Phrase.visit, if_neg hx]
    exact entries_cons_of_not (by simp [enters, hx]) ms

end Records

end Machine

open Machine (Records)

/-- Whatever waits in its frames, the machine enters expressions where the record says. -/
theorem Pattern.Runs.records {p : Pattern} {s s' : Session} {found : Bool}
    (h : p.Runs s found s') (hs : s.Shaped) :
    ∃ visits, Visits p s.ahead found s'.ahead visits ∧
      ∀ frames, Records ⟨.look p, frames, s⟩ visits ⟨.answer found, frames, s'⟩ := by
  induction h with
  | nothing s => exact ⟨[], .nothing _, fun _ => .step rfl rfl (.refl _)⟩
  | ended s =>
    obtain ⟨hfound, hahead, -⟩ := Session.ended_spec hs
    refine ⟨[], ?_, fun _ => .step rfl rfl (.refl _)⟩
    rw [hfound, hahead]
    exact .ended _
  | terminal x s =>
    refine ⟨[], ?_, fun _ => .step rfl rfl (.refl _)⟩
    rcases (Session.accept_spec hs x).1 with ⟨hfound, hahead⟩ | ⟨hfound, hhead, hahead⟩
    · rw [hfound, hahead]
      exact .accepted x _
    · rw [hfound, hahead]
      exact .refused hhead
  | sequenceFails _ ih =>
    obtain ⟨visits, hv, hr⟩ := ih hs
    exact ⟨visits, .sequenceFails hv, fun _ => .step rfl rfl ((hr _).concat rfl rfl)⟩
  | sequence first _ ih ih' =>
    obtain ⟨before, hv, hr⟩ := ih hs
    obtain ⟨behind, hv', hr'⟩ := ih' (first.takes hs).2.1
    exact ⟨_, .sequence hv hv', fun _ => .step rfl rfl ((hr _).trans (.step rfl rfl (hr' _)))⟩
  | choiceFirst _ ih =>
    obtain ⟨visits, hv, hr⟩ := ih hs
    exact ⟨visits, .choiceFirst hv, fun _ => .step rfl rfl ((hr _).concat rfl rfl)⟩
  | choiceSecond first _ ih ih' =>
    obtain ⟨before, hv, hr⟩ := ih hs
    obtain ⟨behind, hv', hr'⟩ := ih' (first.takes hs).2.1
    exact ⟨_, .choiceSecond hv hv', fun _ => .step rfl rfl ((hr _).trans (.step rfl rfl (hr' _)))⟩
  | manyDone _ ih =>
    obtain ⟨visits, hv, hr⟩ := ih hs
    exact ⟨visits, .manyDone hv, fun _ => .step rfl rfl ((hr _).concat rfl rfl)⟩
  | manyMore body _ ih ih' =>
    obtain ⟨before, hv, hr⟩ := ih hs
    obtain ⟨behind, hv', hr'⟩ := ih' (body.takes hs).2.1
    exact ⟨_, .manyMore hv hv', fun _ => .step rfl rfl ((hr _).trans (.step rfl rfl (hr' _)))⟩
  | attemptKept _ kept ih =>
    obtain ⟨visits, hv, hr⟩ := ih hs.mark
    refine ⟨visits, ?_, fun _ => .step rfl rfl ((hr _).concat rfl ?_)⟩
    · rw [Session.ahead_release kept]
      exact .attemptKept hv
    · simp [Machine.step, Machine.resume, kept, Machine.Step.ofMark]
  | @attemptUndone p s s' s'' body undone ih =>
    obtain ⟨visits, hv, hr⟩ := ih hs.mark
    have hstream := (Session.stream_rewind undone).trans (body.takes hs.mark).2.2
    have hsame : s''.ahead = s.ahead := Session.ahead_rewind body.onward.marks_eq undone hstream
    refine ⟨visits, ?_, fun _ => .step rfl rfl ((hr _).concat rfl ?_)⟩
    · rw [hsame]
      exact .attemptUndone hv
    · simp [Machine.step, Machine.resume, undone, Machine.Step.ofMark]
  | phrase _ ih =>
    obtain ⟨visits, hv, hr⟩ := ih hs
    exact ⟨_, .phrase hv, fun _ => (hr _).phrase⟩

/-! ## Places -/

namespace Session

variable {s s' : Session}

/-- How many significant tokens have been handed out. -/
def passed (s : Session) : Nat :=
  (significant s.consumed).length

theorem Shaped.passed_add_ahead (h : s.Shaped) :
    s.passed + s.ahead.length = (significant (s.stream.map Lexeme.token)).length := by
  rw [← h.significant_consumed, List.length_append, h.spells_drain.length_eq, passed]

end Session

namespace Phrase

variable {x : Phrase} {s : Session} {m m' : Machine}

/-- Where the search for the phrase enters expressions, how many significant tokens have been
handed out there. -/
def visits (x : Phrase) (s : Session) : List Nat :=
  (((x.search s).trace (x.halts_search s)).filter (Machine.enters · .expression)).map
    fun m => m.session.passed

/-- The machines of a search enter expressions as a record of it says. -/
theorem visits_entries (x : Phrase) (hs : s.Shaped) :
    ∃ found r, Pattern.Visits (.phrase x) s.ahead found r
      (Machine.entries ((x.search s).trace (x.halts_search s))) := by
  obtain ⟨found, s', hruns⟩ := x.runs_total s
  obtain ⟨visits, hvisits, hrecords⟩ := hruns.records hs
  obtain ⟨ms, hpasses, rfl⟩ : (x.search s).Records visits ⟨.answer found, [], s'⟩ := hrecords []
  have htrace := hpasses.trace_eq (x.halts_search s) (Machine.halts_answer found s')
  have hanswer : Machine.entries [⟨.answer found, [], s'⟩] = [] := rfl
  rw [htrace, Machine.trace_answer, Machine.entries_append, hanswer, List.append_nil]
  exact ⟨found, s'.ahead, hvisits⟩

theorem passed_add_ahead_of_reaches (hs : s.Shaped) (h : (x.search s).Reaches m) :
    m.session.passed + m.session.ahead.length
      = (significant (s.stream.map Lexeme.token)).length := by
  obtain ⟨hshaped, hstream⟩ := h.shaped hs
  rw [hshaped.passed_add_ahead, hstream]
  rfl

/-- Places are counted from the beginning, and in the record from the end. -/
theorem visits_eq (hs : s.Shaped) :
    x.visits s = (Machine.entries ((x.search s).trace (x.halts_search s))).map
      ((significant (s.stream.map Lexeme.token)).length - ·) := by
  rw [Machine.entries, List.map_map, visits]
  refine List.map_congr_left fun m hm => ?_
  have hreaches := (Machine.mem_trace_iff _).1 (List.mem_of_mem_filter hm)
  have hsum := passed_add_ahead_of_reaches hs hreaches
  show m.session.passed = _ - m.session.ahead.length
  omega

/-- Behind its first step, the search for an expression enters further ones only where at
least two terminals fewer are to come. -/
theorem ahead_of_inner {first inner : Machine} (hs : s.Shaped)
    (hfirst : (Phrase.expression.search s).step = .running first) (hreaches : first.Reaches inner)
    (hinner : inner.enters .expression = true) :
    inner.session.ahead.length + 2 ≤ s.ahead.length := by
  obtain ⟨found, r, hvisits⟩ := Phrase.expression.visits_entries hs
  obtain ⟨places, hentries, hexplored⟩ := hvisits.explored
  have halts := Phrase.expression.halts_search s
  have halts' := halts.inv hfirst
  rw [Machine.trace_of_running hfirst halts halts', Machine.entries_cons_of_enters (by rfl)]
    at hentries
  have hmem := Machine.mem_entries ((Machine.mem_trace_iff halts').2 hreaches) hinner
  rw [(List.cons.inj hentries).2] at hmem
  have hlt := (hexplored.inside.bounds _ hmem).2
  omega

/-- An expression inside another one begins at least two significant tokens behind it. -/
theorem passed_of_nested (hs : m.session.Shaped) (hm : m.enters .expression = true)
    (hnested : m.Nested m') (hm' : m'.enters .expression = true) :
    m.session.passed + 2 ≤ m'.session.passed := by
  obtain ⟨first, inner, hfirst, hreaches, rfl⟩ := hnested.exists_alone
  rw [Machine.alone_of_enters hm] at hfirst
  have hahead := ahead_of_inner hs hfirst hreaches hm'
  have hsum := hs.passed_add_ahead
  have hsum' := passed_add_ahead_of_reaches hs (.step hfirst hreaches)
  show m.session.passed + 2 ≤ inner.session.passed
  omega

end Phrase

namespace Program

/-- When a session with so many significant tokens is read, no place is visited twice:
expressions are entered at most once at each place, and so no more often than there are
significant tokens, and once more; one expression inside another begins at least two
significant tokens behind it; and whatever is looked for on the way comes to an answer. -/
structure VisitsOnce (s : Session) (total : Nat) : Prop where
  nodup : (Phrase.program.visits s).Nodup
  within : ∀ place ∈ Phrase.program.visits s, place ≤ total
  length_le : (Phrase.program.visits s).length ≤ total + 1
  nested : ∀ m, (Phrase.program.search s).Reaches m → m.enters .expression = true →
    ∀ m', m.Nested m' → m'.enters .expression = true →
      m.session.passed + 2 ≤ m'.session.passed
  answered : ∀ m, (Phrase.program.search s).Reaches m → ∀ p, m.task = .look p →
    ∃ found s', m.Reaches ⟨.answer found, m.frames, s'⟩

theorem visitsOnce_of_shaped {s : Session} (hs : s.Shaped) :
    VisitsOnce s (significant (s.stream.map Lexeme.token)).length := by
  obtain ⟨found, r, hvisits⟩ := Phrase.program.visits_entries hs
  have hplaces := Phrase.visits_eq (x := .program) hs
  have htotal := hs.passed_add_ahead
  generalize (significant (s.stream.map Lexeme.token)).length = total at hplaces htotal
  have hbetween := Pattern.between_program hvisits
  have hnodup : (Phrase.program.visits s).Nodup := by
    rw [hplaces]
    refine hbetween.nodup.map_on fun v hv v' hv' heq => ?_
    have hle := (hbetween.bounds v hv).2
    have hle' := (hbetween.bounds v' hv').2
    omega
  have hwithin : ∀ place ∈ Phrase.program.visits s, place ≤ total := by
    intro place hplace
    rw [hplaces] at hplace
    obtain ⟨v, -, rfl⟩ := List.mem_map.1 hplace
    exact Nat.sub_le ..
  refine ⟨hnodup, hwithin, ?_, ?_, fun m hm _ _ => Phrase.reaches_answer hm⟩
  · have hsubset : Phrase.program.visits s ⊆ List.range (total + 1) := fun place hplace =>
      List.mem_range.2 (Nat.lt_succ_of_le (hwithin place hplace))
    have hle := (hnodup.subperm hsubset).length_le
    rwa [List.length_range] at hle
  · intro m hm henters m' hnested henters'
    exact Phrase.passed_of_nested (hm.shaped hs).1 henters hnested henters'

/-- Reading a source visits no place twice, the first time and any later time. -/
theorem visits_once (source : String) (readings : Nat) :
    VisitsOnce (afterReading source readings) (significant (tokenize .breakout source)).length := by
  obtain ⟨hs, hstream, -⟩ := afterReading_sound source readings
  have h := visitsOnce_of_shaped hs
  rw [hstream] at h
  exact h

end Program

end Scriptlet
