/-
Scriptlet.Recognition.Significant — reading a session past the tokens that the
grammar does not see.

`Session.Onward` is what reading does to a session: the log only grows, and by
no more than the source has left; the marks stay; and no more tokens are to come
than before.
-/
import Scriptlet.Grammar.Terminal
import Scriptlet.Session

namespace Scriptlet.Session

/-- The next token is handed out once it has been looked at. -/
theorem consume_of_peek {s s' : Session} {t : Token} (h : s.peek = (some t, s')) :
    s'.consume.1 = some t := by
  simp only [peek, Prod.mk.injEq, Option.map_eq_some_iff] at h
  obtain ⟨⟨l, hl, ht⟩, rfl⟩ := h
  have hp : 0 < s.fill.log.unread := RewindLog.unread_pos_iff.2 (by simp [hl])
  simp [consume, fill_of_unread hp, RewindLog.advance, hl, ht]

/-- Handing out a token that was looked at leaves less to come. -/
theorem weight_consume_of_peek {s s' : Session} {t : Token} (h : s.peek = (some t, s')) :
    s'.consume.2.weight < s.weight := by
  have hc : s'.consume = (some t, s'.consume.2) := by rw [← consume_of_peek h]
  have := weight_consume hc
  have hf := weight_fill_le s
  simp only [peek, Prod.mk.injEq] at h
  obtain ⟨-, rfl⟩ := h
  omega

/-- The next token that the grammar sees, which stays the next one. Those
before it are handed out. -/
def nextSignificant (s : Session) : Option Token × Session :=
  match _h : s.peek with
  | (some t, s') =>
    if t.isSignificant then (some t, s') else nextSignificant s'.consume.2
  | (none, s') => (none, s')
termination_by s.weight
decreasing_by exact weight_consume_of_peek _h

/-- Whether the grammar sees no further token. -/
def ended (s : Session) : Bool × Session :=
  let (token?, s') := s.nextSignificant
  (token?.isNone, s')

/-- Hands out the next token that the grammar sees if it is taken for the given
terminal, and tells whether it is. -/
def accept (x : Terminal) (s : Session) : Bool × Session :=
  match s.nextSignificant with
  | (some t, s') => if t.isTerminal x then (true, s'.consume.2) else (false, s')
  | (none, s') => (false, s')

/-! ## Reading on -/

/-- One session comes from another by reading on. -/
structure Onward (s s' : Session) : Prop where
  size_le : s.log.items.size ≤ s'.log.items.size
  extent_le : s'.log.items.size + 2 * s'.cursor.rest.length
    ≤ s.log.items.size + 2 * s.cursor.rest.length
  marks_eq : s'.log.marks = s.log.marks
  weight_le : s'.weight ≤ s.weight

/-- A session comes from itself. -/
theorem Onward.refl (s : Session) : Onward s s :=
  ⟨Nat.le_refl _, Nat.le_refl _, rfl, Nat.le_refl _⟩

/-- Reading on and on is reading on. -/
theorem Onward.trans {s s' s'' : Session} (h : Onward s s') (h' : Onward s' s'') :
    Onward s s'' :=
  ⟨Nat.le_trans h.size_le h'.size_le, Nat.le_trans h'.extent_le h.extent_le,
    h'.marks_eq.trans h.marks_eq, Nat.le_trans h'.weight_le h.weight_le⟩

/-- Reading a batch is reading on. -/
theorem onward_fill (s : Session) : Onward s s.fill := by
  refine ⟨?_, ?_, ?_, weight_fill_le s⟩ <;> unfold fill <;> split
  · simp only [RewindLog.size_append]; omega
  · exact Nat.le_refl _
  · have := Batch.weight_scan s.mode.rules s.cursor
    simp only [RewindLog.size_append]
    omega
  · exact Nat.le_refl _
  · rfl
  · rfl

/-- Looking at the next token is reading on. -/
theorem onward_peek (s : Session) : Onward s s.peek.2 :=
  onward_fill s

/-- Handing out a token is reading on. -/
theorem onward_consume (s : Session) : Onward s s.consume.2 := by
  have hw : s.consume.2.weight ≤ s.weight := by
    cases h : s.consume with
    | mk token? s' =>
      cases token? with
      | some t => exact Nat.le_of_lt (weight_consume h)
      | none =>
        have hf := weight_fill_le s
        simp only [consume, RewindLog.advance, Prod.mk.injEq, Option.map_eq_none_iff] at h
        obtain ⟨hn, rfl⟩ := h
        split at hn
        · cases hn
        · exact hf
  have hf := onward_fill s
  refine ⟨?_, ?_, ?_, hw⟩ <;> simp only [consume, RewindLog.advance] <;> split
  · exact hf.size_le
  · exact hf.size_le
  · exact hf.extent_le
  · exact hf.extent_le
  · exact hf.marks_eq
  · exact hf.marks_eq

/-- Passing over what the grammar does not see is reading on. -/
theorem onward_nextSignificant (s : Session) : Onward s s.nextSignificant.2 := by
  fun_induction nextSignificant s with
  | case1 s t s' h => exact h ▸ onward_peek s
  | case2 s t s' h _ ih =>
    have hp := onward_peek s
    rw [h] at hp
    exact (hp.trans (onward_consume s')).trans ih
  | case3 s s' h => exact h ▸ onward_peek s

/-- The token found is the one that would be handed out next. -/
theorem consume_of_nextSignificant {s s' : Session} {t : Token}
    (h : s.nextSignificant = (some t, s')) : s'.consume.1 = some t := by
  fun_induction nextSignificant s with
  | case1 s t' s'' hp => cases h; exact consume_of_peek hp
  | case2 _ _ _ _ _ ih => exact ih h
  | case3 => cases h

/-- Looking for the end is reading on. -/
theorem onward_ended (s : Session) : Onward s s.ended.2 :=
  onward_nextSignificant s

/-- Looking for a terminal is reading on. -/
theorem onward_accept (x : Terminal) (s : Session) : Onward s (s.accept x).2 := by
  have hn := onward_nextSignificant s
  unfold accept
  split
  · next t s' h =>
    rw [h] at hn
    split
    · exact hn.trans (onward_consume s')
    · exact hn
  · next s' h => rw [h] at hn; exact hn

/-- Accepting a terminal leaves fewer tokens to come. -/
theorem weight_accept {x : Terminal} {s : Session} (h : (s.accept x).1 = true) :
    (s.accept x).2.weight < s.weight := by
  have hn := onward_nextSignificant s
  unfold accept at h ⊢
  split at h
  · next t s' ht =>
    rw [ht] at hn
    split at h
    · next hx =>
      have hc : s'.consume = (some t, s'.consume.2) := by
        rw [← consume_of_nextSignificant ht]
      have := weight_consume hc
      have := hn.weight_le
      simp only [hx, if_true] at *
      omega
    · cases h
  · cases h

end Scriptlet.Session
