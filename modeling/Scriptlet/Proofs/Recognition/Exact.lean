/-
Scriptlet.Proofs.Recognition.Exact — how far a search reads where a word of its
pattern stands.

`Pattern.Exact` says that the word is read and nothing else; `Pattern.Covers` says
that the word is read, and what follows only where an expression can go on. Three
signs continue an expression (`Terminal.continuesExpression`): a point, a sign of
assignment and a left round bracket. Three terminals begin one
(`Terminal.opensExpression`), and they are others (`stops_of_opens`).

The first sections hold one lemma for each way to compose patterns. Then
`Pattern.takes_operand` settles operands, whose only loop is the chain of members.
-/
import Scriptlet.Proofs.Recognition.Language

namespace Scriptlet

/-- The terminals that an expression begins with. -/
def Terminal.opensExpression : Terminal → Bool
  | .symbol | .string | .number => true
  | _ => false

/-- The terminals that may follow an expression inside a longer one. -/
def Terminal.continuesExpression (x : Terminal) : Bool :=
  x == .point || x == .equals || x == .leftRound

/-- No expression that ends before this list goes on in it. -/
def Stops (z : List Terminal) : Prop :=
  ∀ x ∈ z.head?, x.continuesExpression = false

theorem Stops.head?_ne {z : List Terminal} (h : Stops z) {x : Terminal}
    (hx : x.continuesExpression = true) : z.head? ≠ some x := by
  intro hz
  have := h x hz
  rw [hx] at this
  cases this

theorem stops_cons_iff {x : Terminal} {z : List Terminal} :
    Stops (x :: z) ↔ x.continuesExpression = false := by
  simp [Stops]

theorem stops_of_opens {z : List Terminal} (h : ∀ x ∈ z.head?, x.opensExpression = true) :
    Stops z := by
  intro x hx
  have := h x hx
  cases x with
  | symbol | string | number => rfl
  | operator | paren => cases this

/-- A word of the grammar begins with a terminal that opens an expression, unless it
may be empty or is a list of arguments. -/
theorem Derives.opens {x : Nonterminal} {word : List Terminal} (h : Derives x word)
    (hp : x ≠ .program) (ha : x ≠ .arguments) :
    ∃ t w, word = t :: w ∧ t.opensExpression = true := by
  induction h with
  | program => exact absurd rfl hp
  | bareStatement _ ih => exact ih (by simp) (by simp)
  | endedStatement _ ih =>
    obtain ⟨t, w, rfl, ht⟩ := ih (by simp) (by simp)
    exact ⟨t, w ++ [.semicolon], rfl, ht⟩
  | ofAssignment _ ih => exact ih (by simp) (by simp)
  | ofInvocation _ ih => exact ih (by simp) (by simp)
  | assignment => exact ⟨_, _, rfl, rfl⟩
  | @invocation _ calls _ _ ih =>
    obtain ⟨t, w, rfl, ht⟩ := ih (by simp) (by simp)
    exact ⟨t, w ++ calls.flatten, rfl, ht⟩
  | ofMemberChain _ ih => exact ih (by simp) (by simp)
  | string => exact ⟨_, _, rfl, rfl⟩
  | number => exact ⟨_, _, rfl, rfl⟩
  | memberChain => exact ⟨_, _, rfl, rfl⟩
  | noArguments => exact absurd rfl ha
  | someArguments => exact absurd rfl ha

namespace Pattern

variable {p q : Pattern} {x : Terminal} {w z r : List Terminal} {found : Bool}

/-! ## Single steps of a search -/

/-- Where the word stands, the pattern is found and read to the end of the word. -/
def Exact (p : Pattern) (word : List Terminal) : Prop :=
  ∀ z found r, Takes p (word ++ z) found r → found = true ∧ r = z

/-- Where the word stands, the pattern is found and read at least to the end of the
word, and no further if no expression goes on there. -/
def Covers (p : Pattern) (word : List Terminal) : Prop :=
  ∀ z found r, Takes p (word ++ z) found r → found = true ∧ r <:+ z ∧ (Stops z → r = z)

theorem exact_terminal (x : Terminal) : Exact (.terminal x) [x] := by
  intro z found r h
  rcases takes_terminal_iff.1 h with ⟨rfl, hw⟩ | ⟨-, hne, -⟩
  · cases hw
    exact ⟨rfl, rfl⟩
  · exact absurd rfl hne

theorem takes_terminal_refused (hz : z.head? ≠ some x) (h : Takes (.terminal x) z found r) :
    found = false ∧ r = z := by
  rcases takes_terminal_iff.1 h with ⟨-, rfl⟩ | ⟨rfl, -, rfl⟩
  · exact absurd rfl hz
  · exact ⟨rfl, rfl⟩

/-- A sequence is found where its first part is found exactly. -/
theorem takes_sequence_of_exact {word : List Terminal} (hp : Exact p word)
    (h : Takes (.sequence p q) (word ++ z) found r) : Takes q z found r := by
  rcases takes_sequence_iff.1 h with ⟨-, first⟩ | ⟨m, first, second⟩
  · cases (hp z _ _ first).1
  · obtain ⟨-, rfl⟩ := hp z _ _ first
    exact second

theorem takes_sequence_of_covers {word : List Terminal} (hp : Covers p word) (hz : Stops z)
    (h : Takes (.sequence p q) (word ++ z) found r) : Takes q z found r := by
  rcases takes_sequence_iff.1 h with ⟨-, first⟩ | ⟨m, first, second⟩
  · cases (hp z _ _ first).1
  · obtain ⟨-, -, hm⟩ := hp z _ _ first
    obtain rfl := hm hz
    exact second

/-- The sequence fails with its first terminal. -/
theorem takes_sequence_refused (hz : z.head? ≠ some x)
    (h : Takes (.sequence (.terminal x) q) z found r) : found = false ∧ r = z := by
  rcases takes_sequence_iff.1 h with ⟨rfl, first⟩ | ⟨m, first, -⟩
  · exact ⟨rfl, (takes_terminal_refused hz first).2⟩
  · cases (takes_terminal_refused hz first).1

theorem takes_attempt_refused (hz : z.head? ≠ some x)
    (h : Takes (.attempt (.sequence (.terminal x) q)) z found r) : found = false ∧ r = z := by
  rcases takes_attempt_iff.1 h with ⟨-, body⟩ | ⟨rfl, rfl, -⟩
  · cases (takes_sequence_refused hz body).1
  · exact ⟨rfl, rfl⟩

theorem exact_attempt {word : List Terminal} (hp : Exact p word) : Exact (.attempt p) word := by
  intro z found r h
  rcases takes_attempt_iff.1 h with ⟨rfl, body⟩ | ⟨-, -, m, body⟩
  · exact hp z _ _ body
  · cases (hp z _ _ body).1

/-- The first alternative is not found, and nothing is lost by looking for it. -/
theorem takes_choice_refused (hp : ∀ found m, Takes p z found m → found = false ∧ m = z)
    (h : Takes (.choice p q) z found r) : Takes q z found r := by
  rcases takes_choice_iff.1 h with ⟨-, first⟩ | ⟨m, first, second⟩
  · cases (hp _ _ first).1
  · obtain ⟨-, rfl⟩ := hp _ _ first
    exact second

/-- The first alternative is found. -/
theorem exact_choice {word : List Terminal} (hp : Exact p word) : Exact (.choice p q) word := by
  intro z found r h
  rcases takes_choice_iff.1 h with ⟨rfl, first⟩ | ⟨m, first, -⟩
  · exact hp z _ _ first
  · cases (hp z _ _ first).1

/-- A repetition reads words that are found exactly one by one. -/
theorem takes_many_flatten {words : List (List Terminal)} (hp : ∀ word ∈ words, Exact p word)
    (h : Takes (.many p) (words.flatten ++ z) found r) : Takes (.many p) z found r := by
  induction words with
  | nil => exact h
  | cons word words ih =>
    rw [List.flatten_cons, List.append_assoc] at h
    have hword := hp word List.mem_cons_self
    rcases takes_many_iff.1 h with ⟨-, body⟩ | ⟨m, body, others⟩
    · cases (hword _ _ _ body).1
    · obtain ⟨-, rfl⟩ := hword _ _ _ body
      exact ih (fun word' hw => hp word' (List.mem_cons_of_mem _ hw)) others

theorem takes_many_refused (hp : ∀ found m, Takes p z found m → found = false ∧ m = z)
    (h : Takes (.many p) z found r) : r = z := by
  rcases takes_many_iff.1 h with ⟨-, body⟩ | ⟨m, body, -⟩
  · exact (hp _ _ body).2
  · cases (hp _ _ body).1

/-! ## Operands -/

theorem exact_memberAccess : Exact (.phrase .memberAccess) [.point, .symbol] := by
  intro z found r h
  have hbody : Exact (.sequence (.terminal .point) (.terminal .symbol)) [.point, .symbol] := by
    intro z found r h
    exact exact_terminal .symbol z _ _ (takes_sequence_of_exact (exact_terminal .point) h)
  exact exact_attempt hbody z _ _ (takes_phrase_iff.1 h)

/-- A chain is read to its end, and further only where a point follows. -/
theorem takes_memberChain {members : Nat}
    (h : Takes (.phrase .memberChain)
      ((.symbol :: (List.replicate members [.point, .symbol]).flatten) ++ z) found r) :
    found = true ∧ r <:+ z ∧ (z.head? ≠ some .point → r = z) := by
  have hmany := takes_sequence_of_exact (exact_terminal .symbol) (takes_phrase_iff.1 h)
  have hrest : Takes (.many (.phrase .memberAccess)) z found r := by
    refine takes_many_flatten ?_ hmany
    intro word hw
    rw [(List.mem_replicate.1 hw).2]
    exact exact_memberAccess
  refine ⟨hrest.found_of_certain rfl, hrest.suffix, ?_⟩
  intro hz
  refine takes_many_refused ?_ hrest
  intro found m h
  exact takes_attempt_refused hz (takes_phrase_iff.1 h)

theorem takes_memberChain_refused (hz : z.head? ≠ some .symbol)
    (h : Takes (.phrase .memberChain) z found r) : found = false ∧ r = z :=
  takes_sequence_refused hz (takes_phrase_iff.1 h)

/-- An operand is read to its end, and further only where a point follows. -/
theorem takes_operand {word : List Terminal} (hw : Derives .operand word)
    (h : Takes (.phrase .operand) (word ++ z) found r) :
    found = true ∧ r <:+ z ∧ (z.head? ≠ some .point → r = z) := by
  have h := takes_phrase_iff.1 h
  cases hw with
  | ofMemberChain chain =>
    cases chain with
    | memberChain members =>
      rcases takes_choice_iff.1 h with ⟨rfl, first⟩ | ⟨m, first, -⟩
      · exact takes_memberChain first
      · cases (takes_memberChain first).1
  | string =>
    have h := takes_choice_refused (fun _ _ => takes_memberChain_refused (by simp)) h
    rcases takes_choice_iff.1 h with ⟨rfl, first⟩ | ⟨m, first, -⟩
    · obtain ⟨-, rfl⟩ := exact_terminal .string z _ _ first
      exact ⟨rfl, List.suffix_rfl, fun _ => rfl⟩
    · cases (exact_terminal .string z _ _ first).1
  | number =>
    have h := takes_choice_refused (fun _ _ => takes_memberChain_refused (by simp)) h
    have h := takes_choice_refused (fun _ _ => takes_terminal_refused (by simp)) h
    obtain ⟨rfl, rfl⟩ := exact_terminal .number z _ _ h
    exact ⟨rfl, List.suffix_rfl, fun _ => rfl⟩

end Pattern

end Scriptlet
