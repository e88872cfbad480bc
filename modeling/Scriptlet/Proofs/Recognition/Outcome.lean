/-
Scriptlet.Proofs.Recognition.Outcome — how the search for a program ends.

* `Pattern.takes_program_outcome` — what was read is a program, and the search fails
  only before a terminal that opens no expression;
* `Derives.greedy` — of all programs that the list begins with, what was read is the
  longest;
* `Pattern.takes_program_again` — where a search has stopped, another one stops at
  once.

Together they determine the outcome, although neither of them says which alternative
the search took.
-/
import Scriptlet.Proofs.Recognition.Greedy

namespace Scriptlet

namespace Pattern

variable {w z r : List Terminal} {found : Bool}

/-! ## One statement -/

/-- Behind an expression, a semicolon is read if it stands there. -/
theorem takes_terminated (h : Takes (.sequence (.choice (.terminal .semicolon) .nothing)
      (.phrase .program)) w found r) :
    ∃ m, (w = .semicolon :: m ∨ w.head? ≠ some .semicolon ∧ w = m) ∧
      Takes (.phrase .program) m found r := by
  rcases takes_sequence_iff.1 h with ⟨rfl, first⟩ | ⟨m, first, second⟩
  · cases first.found_of_certain rfl
  · refine ⟨m, ?_, second⟩
    rcases takes_choice_iff.1 first with ⟨-, mark⟩ | ⟨m', mark, none⟩
    · exact .inl ((takes_terminal_iff.1 mark).resolve_right (by simp)).2
    · obtain ⟨-, hne, rfl⟩ := (takes_terminal_iff.1 mark).resolve_left (by simp)
      exact .inr ⟨hne, (takes_nothing_iff.1 none).2.symm⟩

/-- A program is at its end, or there is no expression, or it goes on behind one. -/
theorem takes_program_cases (h : Takes (.phrase .program) w found r) :
    w = [] ∧ found = true ∧ r = [] ∨
    w ≠ [] ∧ found = false ∧ r = w ∧ Takes (.phrase .expression) w false w ∨
    ∃ m m', Takes (.phrase .expression) w true m ∧
      (m = .semicolon :: m' ∨ m.head? ≠ some .semicolon ∧ m = m') ∧
      Takes (.phrase .program) m' found r := by
  rcases takes_choice_iff.1 (takes_phrase_iff.1 h) with ⟨rfl, first⟩ | ⟨v, first, second⟩
  · obtain ⟨hempty, rfl⟩ := takes_ended_iff.1 first
    have hnil : r = [] := List.isEmpty_iff.1 hempty.symm
    exact .inl ⟨hnil, rfl, hnil⟩
  · obtain ⟨hempty, rfl⟩ := takes_ended_iff.1 first
    have hne : v ≠ [] := by rintro rfl; cases hempty
    right
    rcases takes_sequence_iff.1 second with ⟨rfl, expression⟩ | ⟨m, expression, others⟩
    · obtain rfl := expression.eq_of_steady rfl rfl
      exact .inl ⟨hne, rfl, rfl, expression⟩
    · obtain ⟨m', hm, others⟩ := takes_terminated others
      exact .inr ⟨m, m', expression, hm, others⟩

/-! ## Where an expression is not found -/

/-- Where no expression is found, none begins: the search for an expression fails
with its very first terminal. -/
theorem takes_expression_false (h : Takes (.phrase .expression) w false r) :
    ∀ x ∈ w.head?, x.opensExpression = false := by
  rcases takes_expression_cases h with ⟨m, hfalse, -⟩ | h
  · cases hfalse
  · rcases takes_sequence_iff.1 (takes_phrase_iff.1 h) with ⟨-, first⟩ | ⟨m, -, second⟩
    · intro x hx
      obtain ⟨w', rfl⟩ : ∃ w', w = [x] ++ w' := by
        cases w with
        | nil => cases hx
        | cons y w' =>
          cases hx
          exact ⟨w', rfl⟩
      cases x with
      | symbol =>
        have ho : Derives .operand [.symbol] := .ofMemberChain (.memberChain 0)
        cases (takes_operand ho first).1
      | string => cases (takes_operand .string first).1
      | number => cases (takes_operand .number first).1
      | operator => rfl
      | paren => rfl
    · cases second.found_of_certain rfl

/-- What is found as an expression begins with a terminal that opens one. -/
theorem takes_expression_true (h : Takes (.phrase .expression) w true r) :
    ∃ x u, w = x :: u ++ r ∧ x.opensExpression = true ∧ Derives .expression (x :: u) := by
  obtain ⟨word, rfl, hword⟩ := h.yields rfl rfl
  have hd : Derives .expression word := hword
  obtain ⟨x, u, rfl, hx⟩ := hd.opens (by simp) (by simp)
  exact ⟨x, u, rfl, hx, hd⟩

/-! ## The outcome -/

/-- What was read is a program. The search succeeds at the end of the list, and fails
only before a terminal that opens no expression. -/
theorem takes_program_outcome (h : Takes (.phrase .program) w found r) :
    ∃ u, w = u ++ r ∧ Derives .program u ∧
      (found = true ∧ r = [] ∨
        found = false ∧ ∃ x m, r = x :: m ∧ x.opensExpression = false) := by
  induction hn : w.length using Nat.strongRecOn generalizing w with
  | ind n ih =>
    rcases takes_program_cases h with ⟨rfl, rfl, rfl⟩ | ⟨hne, rfl, rfl, hexp⟩ |
        ⟨m, m', hexp, hm, hrest⟩
    · exact ⟨[], rfl, .program_nil, .inl ⟨rfl, rfl⟩⟩
    · refine ⟨[], rfl, .program_nil, .inr ⟨rfl, ?_⟩⟩
      obtain ⟨x, v, rfl⟩ := List.exists_cons_of_ne_nil hne
      exact ⟨x, v, rfl, takes_expression_false hexp x rfl⟩
    · obtain ⟨x, e, rfl, -, he⟩ := takes_expression_true hexp
      have hlt : m'.length < n := by
        rcases hm with rfl | ⟨-, rfl⟩ <;> simp at hn <;> omega
      obtain ⟨u, rfl, hu, hend⟩ := ih _ hlt hrest rfl
      rcases hm with rfl | ⟨-, rfl⟩
      · exact ⟨_, by simp, .program_cons (.endedStatement he) hu, hend⟩
      · exact ⟨_, by simp, .program_cons (.bareStatement he) hu, hend⟩

/-- Before a terminal that opens no expression, the search fails without reading. -/
theorem takes_program_again {x : Terminal} {m : List Terminal}
    (hx : x.opensExpression = false) (h : Takes (.phrase .program) (x :: m) found r) :
    found = false ∧ r = x :: m := by
  rcases takes_program_cases h with ⟨hnil, -⟩ | ⟨-, rfl, rfl, -⟩ | ⟨v, v', hexp, -⟩
  · cases hnil
  · exact ⟨rfl, rfl⟩
  · obtain ⟨y, u, hw, hy, -⟩ := takes_expression_true hexp
    cases hw
    rw [hx] at hy
    cases hy

/-! ## Programs -/

/-- Where the statement stands, the search for a program goes on behind it, or
further on. If the next statement or the end follows, it is not further on. -/
def Skips (statement : List Terminal) : Prop :=
  ∀ z found r, Takes (.phrase .program) (statement ++ z) found r →
    ∃ m, m <:+ z ∧ ((∀ x ∈ z.head?, x.opensExpression = true) → m = z) ∧
      Takes (.phrase .program) m found r

/-- Where an expression stands, the search for a program goes on behind it. -/
theorem takes_program_of_covers {word : List Terminal} (hd : Derives .expression word)
    (hw : Covers (.phrase .expression) word)
    (h : Takes (.phrase .program) (word ++ z) found r) :
    ∃ m m', m <:+ z ∧ (Stops z → m = z) ∧
      (m = .semicolon :: m' ∨ m.head? ≠ some .semicolon ∧ m = m') ∧
      Takes (.phrase .program) m' found r := by
  rcases takes_program_cases h with ⟨hnil, -⟩ | ⟨-, -, -, hexp⟩ | ⟨m, m', hexp, hm, hrest⟩
  · obtain ⟨x, u, rfl, -⟩ := hd.opens (by simp) (by simp)
    cases hnil
  · cases (hw z _ _ hexp).1
  · obtain ⟨-, hsuffix, hstops⟩ := hw z _ _ hexp
    exact ⟨m, m', hsuffix, hstops, hm, hrest⟩

theorem skips_bareStatement {word : List Terminal} (hd : Derives .expression word)
    (hw : Covers (.phrase .expression) word) : Skips word := by
  intro z found r h
  obtain ⟨m, m', hsuffix, hstops, hm, hrest⟩ := takes_program_of_covers hd hw h
  have hm' : m' <:+ m := by
    rcases hm with rfl | ⟨-, rfl⟩
    · exact List.suffix_cons ..
    · exact List.suffix_rfl
  refine ⟨m', hm'.trans hsuffix, ?_, hrest⟩
  intro hz
  obtain rfl := hstops (stops_of_opens hz)
  rcases hm with rfl | ⟨-, rfl⟩
  · cases hz _ rfl
  · rfl

theorem skips_endedStatement {word : List Terminal} (hd : Derives .expression word)
    (hw : Covers (.phrase .expression) word) : Skips (word ++ [.semicolon]) := by
  intro z found r h
  rw [List.append_assoc] at h
  obtain ⟨m, m', -, hstops, hm, hrest⟩ := takes_program_of_covers hd hw h
  have hsemicolon : Stops ([.semicolon] ++ z) := stops_cons_iff.2 rfl
  obtain rfl := hstops hsemicolon
  rcases hm with hm | ⟨hne, -⟩
  · cases hm
    exact ⟨z, List.suffix_rfl, fun _ => rfl, hrest⟩
  · exact absurd rfl hne

/-- Statements are passed one by one, and only the last one may lead further on. -/
theorem suffix_of_skips {statements : List (List Terminal)}
    (each : ∀ word ∈ statements, Derives .statement word)
    (skips : ∀ word ∈ statements, Skips word)
    (h : Takes (.phrase .program) (statements.flatten ++ z) found r) : r <:+ z := by
  induction statements with
  | nil => exact h.suffix
  | cons word statements ih =>
    rw [List.flatten_cons, List.append_assoc] at h
    obtain ⟨m, hsuffix, hopens, hrest⟩ := skips word List.mem_cons_self _ _ _ h
    cases statements with
    | nil => exact hrest.suffix.trans hsuffix
    | cons next statements =>
      have hmem : next ∈ word :: next :: statements := by simp
      obtain ⟨x, u, rfl, hx⟩ := (each next hmem).opens (by simp) (by simp)
      obtain rfl := hopens (by intro y hy; cases hy; exact hx)
      exact ih (fun w hw => each w (List.mem_cons_of_mem _ hw))
        (fun w hw => skips w (List.mem_cons_of_mem _ hw)) hrest

end Pattern

/-! ## Greed loses nothing -/

open Pattern

/-- What a search does where a word of the nonterminal stands. -/
def Nonterminal.Greedy : Nonterminal → List Terminal → Prop
  | .program, word => ∀ z found r, Takes (.phrase .program) (word ++ z) found r → r <:+ z
  | .statement, word => Skips word
  | .expression, word | .assignment, word | .invocation, word => Covers (.phrase .expression) word
  | .arguments, word => Exact (.phrase .arguments) word
  | .operand, _ | .memberChain, _ => True

/-- Where a word of the grammar stands, the search does not stop short of its end. -/
theorem Derives.greedy {x : Nonterminal} {word : List Terminal} (h : Derives x word) :
    x.Greedy word := by
  induction h with
  | program each ih => exact fun z found r h => suffix_of_skips each ih h
  | bareStatement expression ih => exact skips_bareStatement expression ih
  | endedStatement expression ih => exact skips_endedStatement expression ih
  | ofAssignment _ ih => exact ih
  | ofInvocation _ ih => exact ih
  | assignment _ ih => exact covers_assignment ih
  | invocation callee each _ ih => exact covers_invocation callee each ih
  | ofMemberChain | string | number | memberChain => trivial
  | noArguments => exact exact_noArguments
  | someArguments expression _ ih ih' => exact exact_someArguments expression ih ih'

end Scriptlet
