/-
Scriptlet.Proofs.Recognition.Once — at no place is an expression looked for twice, although
searches are given up and taken back.

Two facts make it so. First, the search for an expression fails only with its very first
terminal, so it visits nothing else if it fails. Second, what a search has visited that was
taken back lies behind a sign of assignment or a bracket, and no expression begins with
these: the search gets stuck before the sign, and does not come to the places behind it a
second time.

`Pattern.Clear` says this of a record of visits and of the list that is left, and
`Pattern.Explored` of the record of one expression, in which all places but the first lie at
least two terminals further on. `Visits.explored` proves it by induction on the list, from one
lemma for each phrase between an expression and the next one inside it. `between_program`
puts the expressions of a program together.
-/
import Mathlib.Data.List.Nodup
import Scriptlet.Proofs.Recognition.Outcome
import Scriptlet.Proofs.Recognition.Visits

namespace Scriptlet.Pattern

variable {w m r : List Terminal} {found : Bool} {visits before behind : List Nat}
  {low mid top n : Nat}

/-! ## Records of visits -/

/-- No place is visited twice, and each lies within these bounds. -/
structure Between (low top : Nat) (visits : List Nat) : Prop where
  nodup : visits.Nodup
  bounds : ∀ v ∈ visits, low ≤ v ∧ v < top

namespace Between

theorem nil (low top : Nat) : Between low top [] :=
  ⟨.nil, by simp⟩

theorem singleton (h : low ≤ n) (h' : n < top) : Between low top [n] :=
  ⟨List.nodup_singleton n, by simp [h, h']⟩

theorem mono {low' top' : Nat} (h : Between low top visits) (hlow : low' ≤ low)
    (htop : top ≤ top') : Between low' top' visits :=
  ⟨h.nodup, fun v hv => ⟨Nat.le_trans hlow (h.bounds v hv).1,
    Nat.lt_of_lt_of_le (h.bounds v hv).2 htop⟩⟩

/-- What is visited later is visited further on. -/
theorem append {low' : Nat} (h : Between low' top before) (h' : Between low mid behind)
    (hmid : mid ≤ low') (hlow : low ≤ mid) (htop : mid ≤ top) :
    Between low top (before ++ behind) := by
  refine ⟨h.nodup.append h'.nodup ?_, ?_⟩
  · intro v hv hv'
    have hle := (h.bounds v hv).1
    have hlt := (h'.bounds v hv').2
    omega
  · intro v hv
    rcases List.mem_append.1 hv with hv | hv
    · exact (h.mono (Nat.le_trans hlow hmid) (Nat.le_refl top)).bounds v hv
    · exact (h'.mono (Nat.le_refl low) htop).bounds v hv

/-- One place more, which was not visited before. -/
theorem concat (h : Between low top visits) (hn : n ∉ visits) (hlow : low ≤ n) (htop : n < top) :
    Between low top (visits ++ [n]) := by
  refine ⟨h.nodup.append (List.nodup_singleton n) (by simpa using hn), ?_⟩
  intro v hv
  rcases List.mem_append.1 hv with hv | hv
  · exact h.bounds v hv
  · rw [List.mem_singleton.1 hv]
    exact ⟨hlow, htop⟩

theorem above (h : Between low top visits) (hn : ∀ v ∈ visits, n < v) :
    Between (n + 1) top visits :=
  ⟨h.nodup, fun v hv => ⟨hn v hv, (h.bounds v hv).2⟩⟩

theorem cons (h : Between low n visits) (hlow : low ≤ n) :
    Between low (n + 1) (n :: visits) :=
  (singleton (Nat.le_refl n) (Nat.lt_succ_self n)).append h (Nat.le_refl n) hlow (Nat.le_succ n)

end Between

/-- Nothing that was visited is visited again from here on: it all lies further back; or it
does not lie here, and here no search goes on. -/
def Clear (r : List Terminal) (visits : List Nat) : Prop :=
  (∀ v ∈ visits, r.length < v) ∨ ¬Stops r ∧ r.length ∉ visits

namespace Clear

theorem nil (r : List Terminal) : Clear r [] :=
  .inl (by simp)

theorem between (h : Clear r visits) (hr : Stops r) (hv : Between low top visits) :
    Between (r.length + 1) top visits :=
  hv.above (h.resolve_right fun hstuck => hstuck.1 hr)

theorem append (h : ∀ v ∈ before, r.length < v) (h' : Clear r behind) :
    Clear r (before ++ behind) := by
  rcases h' with hlt | ⟨hstuck, hnot⟩
  · exact .inl fun v hv => (List.mem_append.1 hv).elim (h v) (hlt v)
  · refine .inr ⟨hstuck, fun hv => ?_⟩
    rcases List.mem_append.1 hv with hv | hv
    · exact Nat.lt_irrefl _ (h _ hv)
    · exact hnot hv

theorem cons (h : r.length < n) (h' : Clear r visits) : Clear r (n :: visits) :=
  append (fun _ hv => List.mem_singleton.1 hv ▸ h) h'

end Clear

/-- What the search for an expression visits: the place where it begins and, if it succeeds,
places at least two terminals further on. Then less is left, and it is clear. -/
structure Explored (w : List Terminal) (found : Bool) (r : List Terminal)
    (inner : List Nat) : Prop where
  inside : Between 0 (w.length - 1) inner
  failed : found = false → inner = []
  ended : found = true → r.length < w.length ∧ Clear r (w.length :: inner)

namespace Explored

variable {inner : List Nat}

theorem between (h : Explored w found r inner) : Between 0 (w.length + 1) (w.length :: inner) :=
  (h.inside.mono (Nat.le_refl 0) (Nat.sub_le ..)).cons (Nat.zero_le _)

/-- Where no expression goes on, all that was visited lies further back. -/
theorem between_of_stops (h : Explored w true r inner) (hr : Stops r) :
    Between (r.length + 1) (w.length + 1) (w.length :: inner) :=
  (h.ended rfl).2.between hr h.between

end Explored

/-! ## Inside an expression -/

/-- Expressions in lists shorter than this are explored as they should be. -/
def ExploredBelow (n : Nat) : Prop :=
  ∀ {w : List Terminal} {found : Bool} {r : List Terminal} {visits : List Nat}, w.length < n →
    Visits (.phrase .expression) w found r visits →
    ∃ inner, visits = w.length :: inner ∧ Explored w found r inner

theorem between_argumentList (hexp : ExploredBelow n) (hw : w.length < n)
    (h : Visits (.phrase .argumentList) w found r visits) :
    Between 0 (w.length + 1) visits ∧
      (found = true → Between (r.length + 1) (w.length + 1) visits) := by
  induction hk : w.length using Nat.strongRecOn generalizing w r visits with
  | ind k ih =>
    subst hk
    rcases visits_sequence (visits_phrase (by simp) h) with
      ⟨rfl, first⟩ | ⟨m, before, behind, rfl, first, second⟩
    · obtain ⟨inner, rfl, hinner⟩ := hexp hw first
      exact ⟨hinner.between, by simp⟩
    · obtain ⟨inner, rfl, hinner⟩ := hexp hw first
      have hlt := (hinner.ended rfl).1
      rcases visits_terminal_or second with ⟨rfl, rfl, rfl⟩ | ⟨-, second⟩
      · have habove := hinner.between_of_stops (stops_cons_iff.2 rfl)
        rw [List.append_nil]
        exact ⟨hinner.between, fun _ => habove.mono (Nat.le_succ _) (Nat.le_refl _)⟩
      · rcases visits_terminal_then second with ⟨rfl, -, -, rfl⟩ | ⟨m', rfl, others⟩
        · rw [List.append_nil]
          exact ⟨hinner.between, by simp⟩
        · have habove := hinner.between_of_stops (stops_cons_iff.2 rfl)
          rw [List.length_cons] at hlt habove
          obtain ⟨hothers, hended⟩ := ih m'.length (by omega) (by omega) others rfl
          have hle := others.takes.suffix.length_le
          refine ⟨?_, fun hfound => ?_⟩
          · exact habove.append hothers (by omega) (by omega) (by omega)
          · exact habove.append (hended hfound) (by omega) (by omega) (by omega)

/-- Arguments that are given up have been looked for behind their bracket. -/
theorem between_arguments (hexp : ExploredBelow n) (hw : w.length ≤ n)
    (h : Visits (.phrase .arguments) w found r visits) :
    Between 0 w.length visits ∧ (found = true → Between (r.length + 1) w.length visits) ∧
      (found = false → r = w ∧ (visits = [] ∨ ¬Stops w)) := by
  have hbody : ∀ {found r}, Visits (.sequence (.terminal .leftRound)
      (.choice (.terminal .rightRound) (.phrase .argumentList))) w found r visits →
      Between 0 w.length visits ∧ (found = true → Between (r.length + 1) w.length visits) ∧
        (visits = [] ∨ ¬Stops w) := by
    intro found r body
    rcases visits_terminal_then body with ⟨rfl, -, -, rfl⟩ | ⟨m, rfl, inside⟩
    · exact ⟨.nil .., by simp, .inl rfl⟩
    · rcases visits_terminal_or inside with ⟨rfl, -, rfl⟩ | ⟨-, list⟩
      · exact ⟨.nil .., fun _ => .nil .., .inl rfl⟩
      · obtain ⟨hall, hfound⟩ := between_argumentList hexp hw list
        refine ⟨hall, hfound, .inr fun hstops => ?_⟩
        cases stops_cons_iff.1 hstops
  rcases visits_attempt (visits_phrase (by simp) h) with ⟨rfl, body⟩ | ⟨rfl, rfl, m, body⟩
  · obtain ⟨hall, hfound, -⟩ := hbody body
    exact ⟨hall, hfound, by simp⟩
  · obtain ⟨hall, -, hstuck⟩ := hbody body
    exact ⟨hall, by simp, fun _ => ⟨rfl, hstuck⟩⟩

theorem between_many_arguments (hexp : ExploredBelow n) (hw : w.length ≤ n)
    (h : Visits (.many (.phrase .arguments)) w found r visits) :
    Between 0 w.length visits ∧ Clear r visits := by
  induction hk : w.length using Nat.strongRecOn generalizing w visits with
  | ind k ih =>
    subst hk
    rcases visits_many h with ⟨rfl, body⟩ | ⟨m, before, behind, rfl, body, others⟩
    · obtain ⟨hall, -, hfailed⟩ := between_arguments hexp hw body
      obtain ⟨rfl, rfl | hstuck⟩ := hfailed rfl
      · exact ⟨hall, .nil r⟩
      · exact ⟨hall, .inr ⟨hstuck, fun hv => Nat.lt_irrefl _ (hall.bounds _ hv).2⟩⟩
    · obtain ⟨-, hfound, -⟩ := between_arguments hexp hw body
      have hbefore := hfound rfl
      have hlt := body.takes.length_lt rfl rfl
      have hle := others.takes.suffix.length_le
      obtain ⟨hbehind, hclear⟩ := ih m.length hlt (by omega) others rfl
      refine ⟨hbefore.append hbehind (by omega) (by omega) (by omega),
        Clear.append (fun v hv => ?_) hclear⟩
      have hv := (hbefore.bounds v hv).1
      omega

theorem explored_of_invocation (hexp : ExploredBelow n) (hw : w.length ≤ n)
    (h : Visits (.phrase .invocation) w found r visits) : Explored w found r visits := by
  rcases visits_sequence (visits_phrase (by simp) h) with
    ⟨rfl, first⟩ | ⟨m, before, behind, rfl, first, second⟩
  · rw [first.eq_nil_of_quiet rfl]
    exact ⟨.nil .., fun _ => rfl, by simp⟩
  · have hlt := first.takes.length_lt rfl rfl
    have hle := second.takes.suffix.length_le
    obtain ⟨hinside, hclear⟩ := between_many_arguments hexp (by omega) second
    rw [first.eq_nil_of_quiet rfl, List.nil_append]
    refine ⟨hinside.mono (Nat.le_refl 0) (by omega), ?_, fun _ => ⟨by omega, ?_⟩⟩
    · intro hfound
      rw [second.takes.found_of_certain rfl] at hfound
      cases hfound
    · exact hclear.cons (by omega)

/-- An assignment is taken back without a visit, or where its value is missing. -/
theorem visits_assignment (h : Visits (.phrase .assignment) w found r visits) :
    found = false ∧ r = w ∧ visits = [] ∨
      ∃ m r', w = .symbol :: .equals :: m ∧ (found = true → r' = r) ∧ (found = false → r = w) ∧
        Visits (.phrase .expression) m found r' visits := by
  have hbody : ∀ {found r}, Visits (.sequence (.terminal .symbol)
      (.sequence (.terminal .equals) (.phrase .expression))) w found r visits →
      found = false ∧ visits = [] ∨
        ∃ m, w = .symbol :: .equals :: m ∧ Visits (.phrase .expression) m found r visits := by
    intro found r body
    rcases visits_terminal_then body with ⟨rfl, -, -, hnil⟩ | ⟨m, rfl, rest⟩
    · exact .inl ⟨rfl, hnil⟩
    · rcases visits_terminal_then rest with ⟨rfl, -, -, hnil⟩ | ⟨m', rfl, value⟩
      · exact .inl ⟨rfl, hnil⟩
      · exact .inr ⟨m', rfl, value⟩
  rcases visits_attempt (visits_phrase (by simp) h) with ⟨rfl, body⟩ | ⟨rfl, rfl, r', body⟩
  · obtain ⟨hfalse, -⟩ | ⟨m, rfl, value⟩ := hbody body
    · cases hfalse
    · exact .inr ⟨m, r, rfl, fun _ => rfl, by simp, value⟩
  · obtain ⟨-, hnil⟩ | ⟨m, rfl, value⟩ := hbody body
    · exact .inl ⟨rfl, rfl, hnil⟩
    · exact .inr ⟨m, r', rfl, by simp, fun _ => rfl, value⟩

theorem visits_arguments_refused (hw : w.head? ≠ some .leftRound)
    (h : Visits (.phrase .arguments) w found r visits) :
    found = false ∧ r = w ∧ visits = [] := by
  rcases visits_attempt (visits_phrase (by simp) h) with ⟨rfl, body⟩ | ⟨rfl, rfl, m, body⟩
  · rcases visits_terminal_then body with ⟨hfalse, -⟩ | ⟨m, rfl, -⟩
    · cases hfalse
    · exact absurd rfl hw
  · rcases visits_terminal_then body with ⟨-, -, -, hnil⟩ | ⟨m, rfl, -⟩
    · exact ⟨rfl, rfl, hnil⟩
    · exact absurd rfl hw

/-- What was taken back as an assignment is an invocation of its symbol alone. -/
theorem visits_invocation_before_equals
    (h : Visits (.phrase .invocation) (.symbol :: .equals :: m) found r visits) :
    found = true ∧ r = .equals :: m ∧ visits = [] := by
  have hsymbol : Derives .operand [.symbol] := .ofMemberChain (.memberChain 0)
  rcases visits_sequence (visits_phrase (by simp) h) with
    ⟨rfl, first⟩ | ⟨m', before, behind, rfl, first, second⟩
  · cases (takes_operand hsymbol first.takes).1
  · obtain rfl := (takes_operand hsymbol first.takes).2.2 (by simp)
    rw [first.eq_nil_of_quiet rfl, List.nil_append]
    rcases visits_many second with ⟨rfl, body⟩ | ⟨m'', before, behind, rfl, body, -⟩
    · exact ⟨rfl, (visits_arguments_refused (by simp) body).2⟩
    · cases (visits_arguments_refused (by simp) body).1

/-- The value of an assignment is the next expression, two terminals further on. -/
theorem Explored.assignment {inner : List Nat} (h : Explored m true r inner) :
    Explored (.symbol :: .equals :: m) true r (m.length :: inner) := by
  obtain ⟨hlt, hclear⟩ := h.ended rfl
  have hlt' : r.length < m.length + 2 := by omega
  exact ⟨h.between, by simp, fun _ => ⟨hlt', hclear.cons hlt'⟩⟩

theorem explored_missing_value (m : List Terminal) :
    Explored (.symbol :: .equals :: m) true (.equals :: m) [m.length] := by
  refine ⟨.singleton (Nat.zero_le _) (by simp), by simp, fun _ => ⟨by simp, .inr ⟨?_, by simp⟩⟩⟩
  intro hstops
  cases stops_cons_iff.1 hstops

theorem exploredBelow (n : Nat) : ExploredBelow n := by
  induction n with
  | zero => exact fun hw _ => absurd hw (Nat.not_lt_zero _)
  | succ n hexp =>
    intro w found r visits hw h
    have hw := Nat.le_of_lt_succ hw
    obtain ⟨inner, rfl, body⟩ := visits_expression h
    refine ⟨inner, rfl, ?_⟩
    rcases visits_choice body with ⟨rfl, first⟩ | ⟨w', before, behind, rfl, first, second⟩
    · rcases visits_assignment first with ⟨hfalse, -⟩ | ⟨m, r', rfl, hr, -, value⟩
      · cases hfalse
      · obtain rfl := hr rfl
        obtain ⟨inner, rfl, hvalue⟩ := hexp (by simp at hw; omega) value
        exact hvalue.assignment
    · rcases visits_assignment first with ⟨-, rfl, rfl⟩ | ⟨m, r', rfl, -, hr, value⟩
      · exact explored_of_invocation hexp hw second
      · obtain rfl := hr rfl
        obtain ⟨inner, rfl, hvalue⟩ := hexp (by simp at hw; omega) value
        obtain rfl := hvalue.failed rfl
        obtain ⟨rfl, rfl, rfl⟩ := visits_invocation_before_equals second
        exact explored_missing_value m

/-- The search for an expression visits its own place and, if it succeeds, places further on:
each of them once, and the nearest of them two terminals further on. -/
theorem Visits.explored (h : Visits (.phrase .expression) w found r visits) :
    ∃ inner, visits = w.length :: inner ∧ Explored w found r inner :=
  exploredBelow (w.length + 1) (Nat.lt_succ_self _) h

/-! ## Programs -/

/-- Behind an expression, a semicolon is read if it stands there. -/
theorem visits_terminated (h : Visits (.sequence (.choice (.terminal .semicolon) .nothing)
      (.phrase .program)) w found r visits) :
    ∃ m, (w = .semicolon :: m ∨ w = m) ∧ Visits (.phrase .program) m found r visits := by
  rcases visits_sequence h with ⟨rfl, first⟩ | ⟨m, before, behind, rfl, first, second⟩
  · cases first.takes.found_of_certain rfl
  · rw [first.eq_nil_of_quiet rfl, List.nil_append]
    refine ⟨m, ?_, second⟩
    rcases visits_terminal_or first with ⟨-, hmark, -⟩ | ⟨-, none⟩
    · exact .inl hmark
    · cases none
      exact .inr rfl

theorem visits_program (h : Visits (.phrase .program) w found r visits) :
    visits = [] ∨ Visits (.phrase .expression) w false r visits ∨
      ∃ m m' before behind, visits = before ++ behind ∧
        Visits (.phrase .expression) w true m before ∧ (m = .semicolon :: m' ∨ m = m') ∧
        Visits (.phrase .program) m' found r behind := by
  rcases visits_choice (visits_phrase (by simp) h) with
    ⟨rfl, first⟩ | ⟨w', before, behind, rfl, first, second⟩
  · exact .inl (first.eq_nil_of_quiet rfl)
  · obtain ⟨-, rfl⟩ := takes_ended_iff.1 first.takes
    rw [first.eq_nil_of_quiet rfl, List.nil_append]
    right
    rcases visits_sequence second with
      ⟨rfl, expression⟩ | ⟨m, before, behind, rfl, expression, rest⟩
    · exact .inl expression
    · obtain ⟨m', hm, others⟩ := visits_terminated rest
      exact .inr ⟨m, m', before, behind, rfl, expression, hm, others⟩

/-- Where an expression could go on, no further one begins. -/
theorem visits_program_of_not_stops (hw : ¬Stops w)
    (h : Visits (.phrase .program) w found r visits) : visits = [] ∨ visits = [w.length] := by
  rcases visits_program h with rfl | expression | ⟨m, m', before, behind, rfl, expression, -⟩
  · exact .inl rfl
  · obtain ⟨inner, rfl, hinner⟩ := expression.explored
    rw [hinner.failed rfl]
    exact .inr rfl
  · obtain ⟨x, u, rfl, hx, -⟩ := takes_expression_true expression.takes
    exact absurd (stops_of_opens (by simp [hx])) hw

/-- A program visits no place twice. -/
theorem between_program (h : Visits (.phrase .program) w found r visits) :
    Between 0 (w.length + 1) visits := by
  induction hk : w.length using Nat.strongRecOn generalizing w visits with
  | ind k ih =>
    subst hk
    rcases visits_program h with
      rfl | expression | ⟨m, m', before, behind, rfl, expression, hm, others⟩
    · exact .nil ..
    · obtain ⟨inner, rfl, hinner⟩ := expression.explored
      exact hinner.between
    · obtain ⟨inner, rfl, hinner⟩ := expression.explored
      obtain ⟨hlt, hclear⟩ := hinner.ended rfl
      rcases hm with rfl | rfl
      · have hbefore := hinner.between_of_stops (stops_cons_iff.2 rfl)
        rw [List.length_cons] at hlt hbefore
        have hbehind := ih m'.length (by omega) others rfl
        exact hbefore.append hbehind (by omega) (by omega) (by omega)
      · rcases hclear with hlater | ⟨hstuck, hnot⟩
        · have hbefore := hinner.between.above hlater
          have hbehind := ih m.length hlt others rfl
          exact hbefore.append hbehind (by omega) (by omega) (by omega)
        · -- The last expression got stuck, so no statement follows it.
          rcases visits_program_of_not_stops hstuck others with rfl | rfl
          · rw [List.append_nil]
            exact hinner.between
          · exact hinner.between.concat hnot (Nat.zero_le _) (by omega)

end Scriptlet.Pattern
