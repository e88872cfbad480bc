/-
Scriptlet.Proofs.Recognition.Greedy — what belongs to the grammar is found.

A search takes the first alternative that works and repeats as often as it can.
`Derives.greedy` says that nothing is lost by this. If the list begins with a word
of the grammar, the search for it succeeds and reads at least this word; and it
reads no more than the word if no expression goes on behind it.

Inside a program and inside brackets an expression is followed by something else, by
the end, or by the beginning of the next expression, so there the search reads the
very words of the derivation. Only the last expression of a prefix may be followed by
a sign that continues it, and then the search may read on beyond the prefix, but does
not stop short of its end.
-/
import Scriptlet.Proofs.Recognition.Exact

namespace Scriptlet

namespace Pattern

variable {w z r : List Terminal} {found : Bool}

/-! ## Expressions -/

/-- What is found as an expression is an assignment or else an invocation, and the
look for an assignment loses nothing. -/
theorem takes_expression_cases (h : Takes (.phrase .expression) w found r) :
    (∃ m, found = true ∧ w = .symbol :: .equals :: m ∧ Takes (.phrase .expression) m true r) ∨
      Takes (.phrase .invocation) w found r := by
  rcases takes_choice_iff.1 (takes_phrase_iff.1 h) with ⟨rfl, first⟩ | ⟨m, first, second⟩
  · left
    rcases takes_attempt_iff.1 (takes_phrase_iff.1 first) with ⟨-, body⟩ | ⟨hfalse, -⟩
    · obtain ⟨u, hsymbol, hrest⟩ := (takes_sequence_iff.1 body).resolve_left (by simp)
      obtain ⟨v, hequals, hvalue⟩ := (takes_sequence_iff.1 hrest).resolve_left (by simp)
      obtain ⟨-, rfl⟩ := (takes_terminal_iff.1 hsymbol).resolve_right (by simp)
      obtain ⟨-, rfl⟩ := (takes_terminal_iff.1 hequals).resolve_right (by simp)
      exact ⟨v, rfl, rfl, hvalue⟩
    · cases hfalse
  · right
    obtain rfl := first.eq_of_steady rfl rfl
    exact second

theorem covers_assignment {word : List Terminal} (hw : Covers (.phrase .expression) word) :
    Covers (.phrase .expression) (.symbol :: .equals :: word) := by
  intro z found r h
  have hbody : ∀ {found r}, Takes (.sequence (.terminal .symbol)
      (.sequence (.terminal .equals) (.phrase .expression)))
      (.symbol :: .equals :: word ++ z) found r →
      found = true ∧ r <:+ z ∧ (Stops z → r = z) := by
    intro found r h
    have h := takes_sequence_of_exact (exact_terminal .symbol) h
    have h := takes_sequence_of_exact (exact_terminal .equals) h
    exact hw z _ _ h
  rcases takes_choice_iff.1 (takes_phrase_iff.1 h) with ⟨rfl, first⟩ | ⟨m, first, -⟩
  · rcases takes_attempt_iff.1 (takes_phrase_iff.1 first) with ⟨-, body⟩ | ⟨hfalse, -⟩
    · exact hbody body
    · cases hfalse
  · rcases takes_attempt_iff.1 (takes_phrase_iff.1 first) with ⟨htrue, -⟩ | ⟨-, -, m', body⟩
    · cases htrue
    · cases (hbody body).1

/-- An operand that is followed by a sign of assignment is a single symbol. -/
theorem operand_before_equals {operand v m : List Terminal} (ho : Derives .operand operand)
    (h : operand ++ v = .symbol :: .equals :: m) : v = .equals :: m := by
  cases ho with
  | string => cases h
  | number => cases h
  | ofMemberChain chain =>
    cases chain with
    | memberChain members =>
      cases members with
      | zero => simpa using h
      | succ members =>
        rw [List.replicate_succ, List.flatten_cons] at h
        cases h

theorem arguments_head {word : List Terminal} (h : Derives .arguments word) :
    ∃ w, word = .leftRound :: w := by
  cases h with
  | noArguments => exact ⟨_, rfl⟩
  | someArguments => exact ⟨_, rfl⟩

/-- Before a list of arguments stands a left round bracket, or there are no lists. -/
theorem calls_head {calls : List (List Terminal)} (hc : ∀ word ∈ calls, Derives .arguments word)
    (z : List Terminal) :
    calls.flatten ++ z = z ∨ (calls.flatten ++ z).head? = some .leftRound := by
  cases calls with
  | nil => exact .inl rfl
  | cons call calls =>
    obtain ⟨w, rfl⟩ := arguments_head (hc call List.mem_cons_self)
    exact .inr rfl

theorem covers_invocation {operand : List Terminal} {calls : List (List Terminal)}
    (ho : Derives .operand operand) (hc : ∀ word ∈ calls, Derives .arguments word)
    (exact_calls : ∀ word ∈ calls, Exact (.phrase .arguments) word) :
    Covers (.phrase .expression) (operand ++ calls.flatten) := by
  intro z found r h
  rw [List.append_assoc] at h
  have hhead := calls_head hc z
  rcases takes_expression_cases h with ⟨m, rfl, hw, hm⟩ | h
  · -- The search took the operand for the target of an assignment, so the word is
    -- one symbol and the sign of assignment stands behind it.
    have hv := operand_before_equals ho hw
    rcases hhead with hz | hround
    · rw [hz] at hv
      subst hv
      refine ⟨rfl, hm.suffix.trans (List.suffix_cons ..), ?_⟩
      intro hstops
      exact absurd rfl (hstops.head?_ne (x := .equals) rfl)
    · rw [hv] at hround
      cases hround
  · rcases takes_sequence_iff.1 (takes_phrase_iff.1 h) with ⟨-, first⟩ | ⟨m, first, second⟩
    · cases (takes_operand ho first).1
    · obtain ⟨-, hsuffix, hpoint⟩ := takes_operand ho first
      obtain ⟨m', hm', hstops, hmany⟩ : ∃ m', m' <:+ z ∧ (Stops z → m' = z) ∧
          Takes (.many (.phrase .arguments)) m' found r := by
        rcases hhead with hz | hround
        · rw [hz] at hsuffix hpoint
          exact ⟨m, hsuffix, fun hs => hpoint (hs.head?_ne rfl), second⟩
        · obtain rfl := hpoint (by rw [hround]; simp)
          exact ⟨z, List.suffix_rfl, fun _ => rfl, takes_many_flatten exact_calls second⟩
      refine ⟨hmany.found_of_certain rfl, hmany.suffix.trans hm', ?_⟩
      intro hs
      obtain rfl := hstops hs
      refine takes_many_refused ?_ hmany
      intro found m h
      exact takes_attempt_refused (hs.head?_ne rfl) (takes_phrase_iff.1 h)

/-! ## Arguments -/

theorem exact_noArguments : Exact (.phrase .arguments) [.leftRound, .rightRound] := by
  intro z found r h
  have hbody : Exact (.sequence (.terminal .leftRound)
      (.choice (.terminal .rightRound) (.phrase .argumentList))) [.leftRound, .rightRound] := by
    intro z found r h
    have h := takes_sequence_of_exact (exact_terminal .leftRound) h
    exact exact_choice (exact_terminal .rightRound) z _ _ h
  exact exact_attempt hbody z _ _ (takes_phrase_iff.1 h)

/-- Behind an expression in a list of arguments stands a comma or a bracket, so each
expression is read to its end and no further. -/
theorem exact_argumentList {first : List Terminal} {others : List (List Terminal)}
    (hfirst : Covers (.phrase .expression) first)
    (hothers : ∀ other ∈ others, Covers (.phrase .expression) other) :
    Exact (.phrase .argumentList)
      (first ++ (others.map (.comma :: ·)).flatten ++ [.rightRound]) := by
  induction others generalizing first with
  | nil =>
    intro z found r h
    rw [List.map_nil, List.flatten_nil, List.append_nil, List.append_assoc] at h
    have hstops : Stops ([.rightRound] ++ z) := stops_cons_iff.2 rfl
    have h := takes_sequence_of_covers hfirst hstops (takes_phrase_iff.1 h)
    exact exact_choice (exact_terminal .rightRound) z _ _ h
  | cons other others ih =>
    intro z found r h
    have hlist := ih (hothers other List.mem_cons_self)
      (fun o ho => hothers o (List.mem_cons_of_mem _ ho))
    have h := takes_phrase_iff.1 h
    rw [List.map_cons, List.flatten_cons, List.append_assoc, List.append_assoc] at h
    have hstops : Stops (.comma :: other ++ (others.map (.comma :: ·)).flatten ++
        ([.rightRound] ++ z)) := stops_cons_iff.2 rfl
    have h := takes_sequence_of_covers hfirst hstops h
    have h := takes_choice_refused (fun _ _ => takes_terminal_refused (by simp)) h
    have h := takes_sequence_of_exact (exact_terminal .comma) (by simpa using h)
    exact hlist z _ _ (by simpa using h)

theorem exact_someArguments {first : List Terminal} {others : List (List Terminal)}
    (hd : Derives .expression first) (hfirst : Covers (.phrase .expression) first)
    (hothers : ∀ other ∈ others, Covers (.phrase .expression) other) :
    Exact (.phrase .arguments)
      (.leftRound :: first ++ (others.map (.comma :: ·)).flatten ++ [.rightRound]) := by
  intro z found r h
  refine exact_attempt ?_ z _ _ (takes_phrase_iff.1 h)
  intro z found r h
  have h := takes_sequence_of_exact (exact_terminal .leftRound) (by simpa using h)
  obtain ⟨t, v, rfl, ht⟩ := hd.opens (by simp) (by simp)
  have hne : t ≠ .rightRound := by rintro rfl; cases ht
  have h := takes_choice_refused (fun _ _ => takes_terminal_refused (by simpa using hne)) h
  exact exact_argumentList hfirst hothers z _ _ (by simpa using h)

end Pattern

end Scriptlet
