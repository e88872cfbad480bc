/-
Scriptlet.Proofs.Program.Longest — how far a source is read. `Program.read_longest`
says that the significant tokens handed out are the longest beginning of the source
that the grammar derives. If they are not all, the next one begins no expression, and
reading on from there stops at once. If they are all, nothing is left unread, trivia
and faults included.

That the last point reaches beyond the terminals is due to the pattern of a program,
whose search succeeds nowhere but at the end of the stream (`Pattern.closes`).
-/
import Scriptlet.Proofs.Program.Acceptance

namespace Scriptlet

/-! ## Patterns that are found only at the end -/

/-- Whether the pattern is found nowhere but at the end of the stream. -/
def Pattern.closes : Pattern → Bool
  | .ended => true
  | .sequence _ q => q.closes
  | .choice p q => p.closes && q.closes
  | .phrase x => x == .program
  | .nothing | .terminal _ | .many _ | .attempt _ => false

theorem Pattern.Runs.next_of_closes {p : Pattern} {s s' : Session} {found : Bool}
    (h : Runs p s found s') (hs : s.Shaped) (hp : p.closes = true) (hf : found = true) :
    s'.log.next = s'.stream.length := by
  induction h with
  | ended s => exact Session.next_ended hs hf
  | sequenceFails => cases hf
  | sequence first _ _ ih' => exact ih' (first.takes hs).2.1 hp hf
  | choiceFirst _ ih => exact ih hs (Bool.and_eq_true _ _ ▸ hp).1 rfl
  | choiceSecond first _ _ ih' =>
    exact ih' (first.takes hs).2.1 (Bool.and_eq_true _ _ ▸ hp).2 hf
  | @phrase x _ _ _ _ ih =>
    obtain rfl : x = .program := eq_of_beq hp
    exact ih hs rfl hf
  | nothing | terminal | manyDone | manyMore | attemptKept | attemptUndone => cases hp

namespace Program

/-! ## The longest beginning -/

/-- Of the beginnings of the list that the grammar derives, this is the longest. -/
structure Longest (taken all : List Token) : Prop where
  begins : taken <+: all
  grammatical : Grammatical taken
  longest : ∀ other, other <+: all → Grammatical other → other <+: taken

theorem longest_consumed {s s' : Session} {found : Bool} (hs : s.Shaped)
    (hstart : s.log.next = 0) (h : read s = (found, s')) :
    Longest (significant s'.consumed) (significant (s.stream.map Lexeme.token)) := by
  obtain ⟨u, hu, hprogram, hlongest, -⟩ := read_outcome hs h
  obtain ⟨-, hs', hstream⟩ := takes_of_read hs h
  have hall : significant s'.consumed ++ significant s'.drain.1
      = significant (s.stream.map Lexeme.token) := by
    rw [hs'.significant_consumed, hstream]
  have hspells : Spells (significant (s.stream.map Lexeme.token)) s.ahead := by
    have := hs.spells_stream
    rw [Session.ahead, hstart]
    exact this
  have htaken : Spells (significant s'.consumed) u := by
    obtain ⟨v, r, hvr, hv, hr⟩ := (hall ▸ hspells).of_append
    obtain rfl := hr.eq hs'.spells_drain
    rw [hu] at hvr
    exact List.append_cancel_right hvr ▸ hv
  refine ⟨⟨_, hall⟩, ⟨u, htaken, hprogram⟩, ?_⟩
  rintro other ⟨z, hz⟩ ⟨word, hword, hderives⟩
  obtain ⟨v, r, hvr, hv, -⟩ := (hz ▸ hspells).of_append
  obtain rfl := hv.eq hword
  have hle := (hlongest v ⟨r, hvr.symm⟩ hderives).length_le
  rw [← hword.length_eq, ← htaken.length_eq] at hle
  exact List.prefix_of_prefix_length_le ⟨z, hz⟩ ⟨_, hall⟩ hle

/-! ## Where reading stops -/

/-- A terminal that opens no expression is no symbol and no literal. -/
theorem kind_of_terminal? {t : Token} {x : Terminal} (ht : t.terminal? = some x)
    (hx : x.opensExpression = false) :
    t.kind ≠ .symbol ∧ t.kind ≠ .stringLiteral ∧ t.kind ≠ .numberLiteral := by
  unfold Token.terminal? at ht
  refine ⟨?_, ?_, ?_⟩ <;> intro hk <;> rw [hk] at ht <;> cases ht <;> cases hx

/-- If reading fails, the next significant token is no symbol and no literal. -/
theorem next_of_read_false {s s' : Session} (hs : s.Shaped) (h : read s = (false, s')) :
    ∃ t rest, significant s'.drain.1 = t :: rest ∧
      t.kind ≠ .symbol ∧ t.kind ≠ .stringLiteral ∧ t.kind ≠ .numberLiteral := by
  obtain ⟨-, -, -, -, ⟨hfalse, -⟩ | ⟨-, x, m, hcons, hx⟩⟩ := read_outcome hs h
  · cases hfalse
  · have hspells := (takes_of_read hs h).2.1.spells_drain
    rw [hcons] at hspells
    unfold Spells at hspells
    rw [List.map_cons] at hspells
    obtain ⟨t, rest, ht, hterminal, -⟩ := List.map_eq_cons_iff.1 hspells
    exact ⟨t, rest, ht, kind_of_terminal? hterminal hx⟩

/-- Reading again where reading has failed fails again and hands out no significant
token. -/
theorem read_again_of_false {s s' s'' : Session} {found : Bool} (hs : s.Shaped)
    (h : read s = (false, s')) (h' : read s' = (found, s'')) :
    found = false ∧ significant s''.consumed = significant s'.consumed := by
  obtain ⟨-, -, -, -, ⟨hfalse, -⟩ | ⟨-, x, m, hcons, hx⟩⟩ := read_outcome hs h
  · cases hfalse
  · have hs' := (takes_of_read hs h).2.1
    obtain ⟨htakes, hs'', hstream⟩ := takes_of_read hs' h'
    rw [hcons] at htakes
    obtain ⟨rfl, hsame⟩ := Pattern.takes_program_again hx htakes
    refine ⟨rfl, ?_⟩
    have hall : significant s''.consumed ++ significant s''.drain.1
        = significant s'.consumed ++ significant s'.drain.1 := by
      rw [hs'.significant_consumed, hs''.significant_consumed, hstream]
    have hlen : (significant s''.drain.1).length = (significant s'.drain.1).length := by
      rw [hs''.spells_drain.length_eq, hs'.spells_drain.length_eq, hsame, hcons]
    exact (List.append_inj' hall hlen).1

/-- If reading succeeds, nothing is left, and reading again succeeds. -/
theorem at_end_of_read_true {s s' : Session} (hs : s.Shaped) (h : read s = (true, s')) :
    s'.hasMore = false ∧ s'.consumed = s.stream.map Lexeme.token ∧ (read s').1 = true := by
  obtain ⟨-, hs', hstream⟩ := takes_of_read hs h
  have hnext := (read_eq_iff.1 h).next_of_closes hs rfl rfl
  obtain ⟨hmore, hconsumed⟩ := Session.at_end hs'.orderly hnext
  refine ⟨hmore, by rw [hconsumed, hstream], ?_⟩
  rw [read_fst_iff hs', Session.ahead, hnext, List.drop_length]
  exact .program_nil

/-! ## Sources -/

/-- Where reading a source from its beginning comes to. -/
def reached (source : String) : Session :=
  (read (.start .breakout source)).2

/-- A source is read as far as the grammar goes. -/
theorem read_longest (source : String) :
    Longest (significant (reached source).consumed)
        (significant (tokenize .breakout source)) ∧
      (isWellFormed source = false →
        (∃ t rest, significant (reached source).drain.1 = t :: rest ∧
          t.kind ≠ .symbol ∧ t.kind ≠ .stringLiteral ∧ t.kind ≠ .numberLiteral) ∧
        (read (reached source)).1 = false ∧
        significant (read (reached source)).2.consumed
          = significant (reached source).consumed) ∧
      (isWellFormed source = true →
        (reached source).hasMore = false ∧
        (reached source).consumed = tokenize .breakout source ∧
        (read (reached source)).1 = true) := by
  have hs := Session.shaped_start .breakout source
  have hread : read (.start .breakout source) = (isWellFormed source, reached source) := rfl
  refine ⟨longest_consumed hs rfl hread, ?_, ?_⟩
  · intro hfalse
    rw [hfalse] at hread
    exact ⟨next_of_read_false hs hread, read_again_of_false hs hread rfl⟩
  · intro htrue
    rw [htrue] at hread
    exact at_end_of_read_true hs hread

end Program

end Scriptlet
