/-
Scriptlet.Proofs.Session.Lookahead — a session as the grammar sees it: the list of
terminals that are still to come.

`Session.ahead` is this list. The three ways in which a search looks at a session
are ways to look at the head of it:

* `Session.ended_spec` — a session is at its end if the list is empty;
* `Session.accept_spec` — a terminal is accepted if it is the head, and then the
  tail is left;
* `Session.Sighted` — what is passed over on the way to the next significant token
  is not in the list.

The list says everything about the tokens because their values are of their kinds
(`Session.Shaped`): a token is significant exactly if it is a terminal, and it is taken for
the terminal that it is (`Token.isTerminal_iff`).
-/
import Scriptlet.Proofs.Rule.Extent
import Scriptlet.Proofs.Lexeme.Chain
import Scriptlet.Proofs.Session.Stream
import Scriptlet.Recognition.Significant

namespace Scriptlet

/-- A token whose value is of its kind is a terminal if the grammar sees it. -/
theorem Token.isSome_terminal? {t : Token} (h : t.kind.carries t.value = true) :
    t.terminal?.isSome = t.isSignificant := by
  obtain ⟨kind, span, text, value⟩ := t
  cases kind <;> rcases value with _ | (_ | _ | _ | _ | _ | _) <;>
    first | rfl | cases h

/-- A token whose value is of its kind is taken for the terminal that it is, and for no other:
among such tokens the kind of a name or literal says as much as its value, and the value of an
operator or bracket as much as its kind. -/
theorem Token.isTerminal_iff {t : Token} (h : t.kind.carries t.value = true) {x : Terminal} :
    t.isTerminal x = true ↔ t.terminal? = some x := by
  obtain ⟨kind, span, text, value⟩ := t
  cases kind <;> rcases value with _ | (_ | _ | _ | _ | _ | _) <;>
    first
    | exact Bool.noConfusion h
    | cases x <;> simp [isTerminal, isOperator, isParen, operator?, paren?, terminal?]

namespace Session

/-- The terminals that are still to come. -/
def ahead (s : Session) : List Terminal :=
  (s.stream.drop s.log.next).filterMap fun l => l.token.terminal?

/-- The places of the session are in order, and its tokens carry values of their
kinds. -/
structure Shaped (s : Session) : Prop where
  orderly : s.log.Orderly
  carries : ∀ l ∈ s.stream, l.token.kind.carries l.token.value = true

theorem shaped_start (mode : Mode) (source : String) : (start mode source).Shaped := by
  refine ⟨RewindLog.orderly_empty, ?_⟩
  exact Lexeme.forall_mem_readFrom (fun c l hl => Batch.carries_of_mem_scan hl) _

theorem Shaped.of_stream_eq {s s' : Session} (h : s.Shaped) (hs : s'.stream = s.stream)
    (ho : s'.log.Orderly) : s'.Shaped :=
  ⟨ho, hs ▸ h.carries⟩

theorem Shaped.fill {s : Session} (h : s.Shaped) : s.fill.Shaped :=
  h.of_stream_eq (stream_fill s) (orderly_fill h.orderly)

theorem Shaped.consume {s : Session} (h : s.Shaped) : s.consume.2.Shaped :=
  h.of_stream_eq (stream_consume s) (orderly_consume h.orderly)

theorem Shaped.mark {s : Session} (h : s.Shaped) : s.mark.Shaped :=
  ⟨h.orderly.mark, h.carries⟩

theorem ahead_fill (s : Session) : s.fill.ahead = s.ahead := by
  rw [ahead, ahead, stream_fill, next_fill]

/-- Handing out a token takes it off the list, if it is in it. -/
theorem ahead_eq_append {s : Session} (h : s.log.Orderly) {l : Lexeme}
    (hl : s.stream[s.log.next]? = some l) :
    s.ahead = l.token.terminal?.toList ++ s.consume.2.ahead := by
  obtain ⟨hlt, hl⟩ := List.getElem?_eq_some_iff.1 hl
  rw [ahead, ahead, stream_consume, next_consume h, if_pos hlt, List.drop_eq_getElem_cons hlt, hl,
    List.filterMap_cons]
  cases l.token.terminal? <;> rfl

/-! ## Marks -/

theorem Shaped.release {s s' : Session} (h : s.Shaped) (hr : s.release = .ok s') : s'.Shaped :=
  h.of_stream_eq (stream_release hr) (orderly_release h.orderly hr)

theorem Shaped.rewind {s s' : Session} (h : s.Shaped) (hr : s.rewind = .ok s') : s'.Shaped :=
  h.of_stream_eq (stream_rewind hr) (orderly_rewind h.orderly hr)

theorem ahead_release {s s' : Session} (hr : s.release = .ok s') : s'.ahead = s.ahead := by
  obtain ⟨cursor, mode, items, next, marks⟩ := s
  cases marks with
  | nil => cases hr
  | cons place marks =>
    cases hr
    rfl

/-- Going back to a mark brings back the list that was to come there. -/
theorem ahead_rewind {s s' s'' : Session} (hm : s'.log.marks = s.mark.log.marks)
    (hr : s'.rewind = .ok s'') (hs : s''.stream = s.stream) : s''.ahead = s.ahead := by
  have hnext : s''.log.next = s.log.next := by
    obtain ⟨cursor, mode, items, next, marks⟩ := s'
    cases hm
    cases hr
    rfl
  rw [ahead, ahead, hs, hnext]

/-! ## The next significant token -/

/-- What a look for the next significant token finds, and where it ends. -/
structure Sighted (s : Session) (token? : Option Token) (s' : Session) : Prop where
  shaped : s'.Shaped
  stream_eq : s'.stream = s.stream
  ahead_eq : s'.ahead = s.ahead
  token_eq : token? = s'.stream[s'.log.next]?.map Lexeme.token
  significant : ∀ t ∈ token?, t.isSignificant = true

theorem sighted_nextSignificant {s : Session} (h : s.Shaped) :
    Sighted s s.nextSignificant.1 s.nextSignificant.2 := by
  fun_induction nextSignificant s with
  | case1 s t s' hp hsig =>
    obtain rfl : s.fill = s' := congrArg Prod.snd hp
    have ht := peek_fst_fill h.orderly
    rw [hp] at ht
    refine ⟨h.fill, stream_fill s, ahead_fill s, ht, ?_⟩
    intro t' ht'
    cases ht'
    exact hsig
  | case2 s t s' hp hsig ih =>
    obtain rfl : s.fill = s' := congrArg Prod.snd hp
    have ht := peek_fst_fill h.orderly
    rw [hp] at ht
    obtain ⟨l, hl, rfl⟩ := Option.map_eq_some_iff.1 ht.symm
    have hnone : l.token.terminal? = none := by
      have hmem : l ∈ s.fill.stream := List.mem_of_getElem? hl
      rw [← Option.not_isSome_iff_eq_none, Token.isSome_terminal? (h.fill.carries l hmem)]
      exact hsig
    have hahead := ahead_eq_append h.fill.orderly hl
    rw [hnone] at hahead
    obtain ⟨hshaped, hstream, hrest, htoken, hsig⟩ := ih h.fill.consume
    refine ⟨hshaped, ?_, ?_, htoken, hsig⟩
    · rw [hstream, stream_consume, stream_fill]
    · rw [hrest, ← ahead_fill s, hahead]
      rfl
  | case3 s s' hp =>
    obtain rfl : s.fill = s' := congrArg Prod.snd hp
    have ht := peek_fst_fill h.orderly
    rw [hp] at ht
    exact ⟨h.fill, stream_fill s, ahead_fill s, ht, by simp⟩

namespace Sighted

variable {s s' : Session} {t : Token}

/-- If nothing is found, the list is empty and everything has been handed out. -/
theorem at_end (h : Sighted s none s') : s.ahead = [] ∧ s'.log.next = s'.stream.length := by
  have hnone := Option.map_eq_none_iff.1 h.token_eq.symm
  have hle := List.getElem?_eq_none_iff.1 hnone
  have hge := next_le_stream h.shaped.orderly
  refine ⟨?_, by omega⟩
  rw [← h.ahead_eq, ahead, List.drop_eq_nil_of_le hle]
  rfl

/-- A token that is found carries a value of its kind. -/
theorem carries (h : Sighted s (some t) s') : t.kind.carries t.value = true := by
  obtain ⟨l, hl, rfl⟩ := Option.map_eq_some_iff.1 h.token_eq.symm
  exact h.shaped.carries l (List.mem_of_getElem? hl)

/-- If a token is found, it is the head of the list. -/
theorem ahead_eq_cons (h : Sighted s (some t) s') :
    ∃ x, t.terminal? = some x ∧ s.ahead = x :: s'.consume.2.ahead := by
  have hsome := Token.isSome_terminal? h.carries
  rw [h.significant _ rfl] at hsome
  obtain ⟨l, hl, rfl⟩ := Option.map_eq_some_iff.1 h.token_eq.symm
  obtain ⟨x, hx⟩ := Option.isSome_iff_exists.1 hsome
  have hahead := ahead_eq_append h.shaped.orderly hl
  rw [hx, h.ahead_eq] at hahead
  exact ⟨x, hx, hahead⟩

end Sighted

/-! ## Looking at the head of the list -/

theorem ended_spec {s : Session} (h : s.Shaped) :
    s.ended.1 = s.ahead.isEmpty ∧ s.ended.2.ahead = s.ahead ∧ s.ended.2.Shaped ∧
      s.ended.2.stream = s.stream := by
  have hs := sighted_nextSignificant h
  refine ⟨?_, hs.ahead_eq, hs.shaped, hs.stream_eq⟩
  show s.nextSignificant.1.isNone = _
  revert hs
  generalize s.nextSignificant.2 = s'
  cases s.nextSignificant.1 with
  | none =>
    intro hs
    rw [hs.at_end.1]
    rfl
  | some t =>
    intro hs
    obtain ⟨x, -, hx⟩ := hs.ahead_eq_cons
    rw [hx]
    rfl

/-- A session that is found at its end has handed out everything. -/
theorem next_ended {s : Session} (h : s.Shaped) (he : s.ended.1 = true) :
    s.ended.2.log.next = s.ended.2.stream.length := by
  have hs := sighted_nextSignificant h
  rw [Option.isNone_iff_eq_none.1 he] at hs
  exact hs.at_end.2

theorem accept_spec {s : Session} (h : s.Shaped) (x : Terminal) :
    ((s.accept x).1 = true ∧ s.ahead = x :: (s.accept x).2.ahead ∨
      (s.accept x).1 = false ∧ s.ahead.head? ≠ some x ∧ (s.accept x).2.ahead = s.ahead) ∧
    (s.accept x).2.Shaped ∧ (s.accept x).2.stream = s.stream := by
  have hs := sighted_nextSignificant h
  unfold accept
  split
  · next t s' hn =>
    rw [hn] at hs
    obtain ⟨y, hy, hahead⟩ := hs.ahead_eq_cons
    have hiff := Token.isTerminal_iff hs.carries (x := x)
    by_cases hx : t.isTerminal x = true
    · obtain rfl : y = x := Option.some.inj (hy.symm.trans (hiff.1 hx))
      rw [if_pos hx]
      refine ⟨.inl ⟨rfl, hahead⟩, hs.shaped.consume, ?_⟩
      rw [stream_consume, hs.stream_eq]
    · rw [if_neg hx]
      refine ⟨.inr ⟨rfl, ?_, hs.ahead_eq⟩, hs.shaped, hs.stream_eq⟩
      rw [hahead, List.head?_cons, ← hy]
      exact fun hterminal => hx (hiff.2 hterminal)
  · next s' hn =>
    rw [hn] at hs
    refine ⟨.inr ⟨rfl, ?_, hs.ahead_eq⟩, hs.shaped, hs.stream_eq⟩
    rw [hs.at_end.1]
    simp

end Session

end Scriptlet
