/-
Scriptlet.Recognition.Runs — what it means to look for a pattern in a session:
whether it is found, and where the session stands afterwards. The relation
follows the shape of the pattern and knows of no machinery.

`Pattern.Runs.onward` and `Pattern.Runs.weight_lt`: a search only reads on, and
reads something if it finds a pattern that does. `Phrase.runs_total`: every search
for a phrase has an outcome.
-/
import Scriptlet.Recognition.Pattern
import Scriptlet.Recognition.Significant

namespace Scriptlet

/-- Looking for a pattern in one session ends with this answer in that session. -/
inductive Pattern.Runs : Pattern → Session → Bool → Session → Prop where
  | nothing (s : Session) : Runs .nothing s true s
  | ended (s : Session) : Runs .ended s s.ended.1 s.ended.2
  | terminal (x : Terminal) (s : Session) :
      Runs (.terminal x) s (s.accept x).1 (s.accept x).2
  | sequenceFails {p q : Pattern} {s s' : Session} (first : Runs p s false s') :
      Runs (.sequence p q) s false s'
  | sequence {p q : Pattern} {s s' s'' : Session} {found : Bool}
      (first : Runs p s true s') (second : Runs q s' found s'') :
      Runs (.sequence p q) s found s''
  | choiceFirst {p q : Pattern} {s s' : Session} (first : Runs p s true s') :
      Runs (.choice p q) s true s'
  | choiceSecond {p q : Pattern} {s s' s'' : Session} {found : Bool}
      (first : Runs p s false s') (second : Runs q s' found s'') :
      Runs (.choice p q) s found s''
  | manyDone {p : Pattern} {s s' : Session} (body : Runs p s false s') :
      Runs (.many p) s true s'
  | manyMore {p : Pattern} {s s' s'' : Session} {found : Bool}
      (body : Runs p s true s') (others : Runs (.many p) s' found s'') :
      Runs (.many p) s found s''
  | attemptKept {p : Pattern} {s s' s'' : Session} (body : Runs p s.mark true s')
      (kept : s'.release = .ok s'') : Runs (.attempt p) s true s''
  | attemptUndone {p : Pattern} {s s' s'' : Session} (body : Runs p s.mark false s')
      (undone : s'.rewind = .ok s'') : Runs (.attempt p) s false s''
  | phrase {x : Phrase} {s s' : Session} {found : Bool} (body : Runs x.pattern s found s') :
      Runs (.phrase x) s found s'

/-! ## Marks -/

namespace Session

/-- Reading on from a mark leaves that mark the last one, so it can be released;
then the session has been read on. -/
theorem Onward.release_ok {s s' : Session} (h : Onward s.mark s') :
    ∃ s'', s'.release = .ok s'' ∧ s''.weight = s'.weight ∧ Onward s s'' := by
  obtain ⟨cursor, mode, items, next, marks⟩ := s'
  obtain ⟨hs, he, hm, hw⟩ := h
  cases hm
  exact ⟨_, rfl, rfl, ⟨hs, he, rfl, hw⟩⟩

/-- Reading on from a mark leaves that mark the last one, so the session can go
back to it; then it has not lost anything and reads on from where it was. -/
theorem Onward.rewind_ok {s s' : Session} (h : Onward s.mark s') :
    ∃ s'', s'.rewind = .ok s'' ∧ s''.log.next = s.log.next ∧ Onward s s'' := by
  obtain ⟨cursor, mode, items, next, marks⟩ := s'
  obtain ⟨hs, he, hm, hw⟩ := h
  cases hm
  refine ⟨_, rfl, rfl, ⟨hs, he, rfl, ?_⟩⟩
  simp only [mark, RewindLog.mark, weight, RewindLog.unread] at *
  omega

end Session

namespace Pattern.Runs

open Session (Onward)

/-- A search only reads on, and leaves the marks as they were. -/
theorem onward {p : Pattern} {s s' : Session} {found : Bool} (h : Runs p s found s') :
    Onward s s' := by
  induction h with
  | nothing s => exact .refl s
  | ended s => exact s.onward_ended
  | terminal x s => exact s.onward_accept x
  | sequenceFails _ ih => exact ih
  | sequence _ _ ih ih' => exact ih.trans ih'
  | choiceFirst _ ih => exact ih
  | choiceSecond _ _ ih ih' => exact ih.trans ih'
  | manyDone _ ih => exact ih
  | manyMore _ _ ih ih' => exact ih.trans ih'
  | attemptKept _ kept ih =>
    obtain ⟨_, hk, _, ho⟩ := ih.release_ok
    cases kept.symm.trans hk
    exact ho
  | attemptUndone _ undone ih =>
    obtain ⟨_, hk, _, ho⟩ := ih.rewind_ok
    cases undone.symm.trans hk
    exact ho
  | phrase _ ih => exact ih

/-- Finding a pattern that has a token in it leaves fewer tokens to come. -/
theorem weight_lt {p : Pattern} {s s' : Session} {found : Bool} (h : Runs p s found s')
    (hf : found = true) (hp : p.reads = true) : s'.weight < s.weight := by
  induction h with
  | nothing => cases hp
  | ended => cases hp
  | terminal x s => exact Session.weight_accept hf
  | sequenceFails => cases hf
  | sequence first second ih ih' =>
    rcases Bool.or_eq_true _ _ ▸ hp with hp | hp
    · exact Nat.lt_of_le_of_lt second.onward.weight_le (ih rfl hp)
    · exact Nat.lt_of_lt_of_le (ih' hf hp) first.onward.weight_le
  | choiceFirst _ ih => exact ih rfl (Bool.and_eq_true _ _ ▸ hp).1
  | choiceSecond first _ _ ih' =>
    exact Nat.lt_of_lt_of_le (ih' hf (Bool.and_eq_true _ _ ▸ hp).2) first.onward.weight_le
  | manyDone => cases hp
  | manyMore => cases hp
  | attemptKept body kept ih =>
    obtain ⟨_, hk, hw, _⟩ := body.onward.release_ok
    cases kept.symm.trans hk
    exact hw ▸ ih rfl hp
  | attemptUndone => cases hf
  | phrase _ ih => exact ih hf (Phrase.pattern_reads _ hp)

end Pattern.Runs

/-! ## Every search has an outcome -/

/-- Looking for a pattern in a session comes to an end. -/
def Pattern.Settles (p : Pattern) (s : Session) : Prop :=
  ∃ found s', p.Runs s found s'

namespace Pattern.Settles

/-- A sequence settles if its parts do, the second wherever the first ends. -/
theorem sequence {p q : Pattern} {s : Session} (first : p.Settles s)
    (second : ∀ s', p.Runs s true s' → q.Settles s') : (Pattern.sequence p q).Settles s := by
  obtain ⟨found, s', h⟩ := first
  cases found with
  | false => exact ⟨_, _, .sequenceFails h⟩
  | true =>
    obtain ⟨_, _, h'⟩ := second s' h
    exact ⟨_, _, .sequence h h'⟩

/-- A choice settles if its parts do, the second wherever the first fails. -/
theorem choice {p q : Pattern} {s : Session} (first : p.Settles s)
    (second : ∀ s', p.Runs s false s' → q.Settles s') : (Pattern.choice p q).Settles s := by
  obtain ⟨found, s', h⟩ := first
  cases found with
  | true => exact ⟨_, _, .choiceFirst h⟩
  | false =>
    obtain ⟨_, _, h'⟩ := second s' h
    exact ⟨_, _, .choiceSecond h h'⟩

/-- A repetition settles if its body does, and the repetition wherever that ends. -/
theorem many {p : Pattern} {s : Session} (body : p.Settles s)
    (others : ∀ s', p.Runs s true s' → (Pattern.many p).Settles s') :
    (Pattern.many p).Settles s := by
  obtain ⟨found, s', h⟩ := body
  cases found with
  | false => exact ⟨_, _, .manyDone h⟩
  | true =>
    obtain ⟨_, _, h'⟩ := others s' h
    exact ⟨_, _, .manyMore h h'⟩

/-- An attempt settles if its body does: the mark it was made at is still there. -/
theorem attempt {p : Pattern} {s : Session} (body : p.Settles s.mark) :
    (Pattern.attempt p).Settles s := by
  obtain ⟨found, s', h⟩ := body
  cases found with
  | true =>
    obtain ⟨_, hk, _⟩ := h.onward.release_ok
    exact ⟨_, _, .attemptKept h hk⟩
  | false =>
    obtain ⟨_, hk, _⟩ := h.onward.rewind_ok
    exact ⟨_, _, .attemptUndone h hk⟩

/-- A guarded pattern settles if the phrases below its bound settle from here
on, and all phrases do once something has been read. -/
theorem of_guarded {p : Pattern} {bound : Nat} {s : Session}
    (below : ∀ x s', x.rank < bound → s'.weight ≤ s.weight → (Pattern.phrase x).Settles s')
    (later : ∀ x s', s'.weight < s.weight → (Pattern.phrase x).Settles s')
    (h : p.guarded bound = true) : p.Settles s := by
  induction p generalizing bound s with
  | nothing => exact ⟨_, _, .nothing s⟩
  | ended => exact ⟨_, _, .ended s⟩
  | terminal x => exact ⟨_, _, .terminal x s⟩
  | sequence p q ihp ihq =>
    obtain ⟨hp, hq⟩ := Bool.and_eq_true _ _ ▸ h
    refine sequence (ihp below later hp) fun s' hs' => ?_
    have hle := hs'.onward.weight_le
    split at hq
    · next hr =>
      have hlt := hs'.weight_lt rfl hr
      exact ihq (fun x s'' _ hs'' => later x s'' (Nat.lt_of_le_of_lt hs'' hlt))
        (fun x s'' hs'' => later x s'' (Nat.lt_of_lt_of_le hs'' hle)) hq
    · exact ihq (fun x s'' hx hs'' => below x s'' hx (Nat.le_trans hs'' hle))
        (fun x s'' hs'' => later x s'' (Nat.lt_of_lt_of_le hs'' hle)) hq
  | choice p q ihp ihq =>
    obtain ⟨hp, hq⟩ := Bool.and_eq_true _ _ ▸ h
    refine choice (ihp below later hp) fun s' hs' => ?_
    have hle := hs'.onward.weight_le
    exact ihq (fun x s'' hx hs'' => below x s'' hx (Nat.le_trans hs'' hle))
      (fun x s'' hs'' => later x s'' (Nat.lt_of_lt_of_le hs'' hle)) hq
  | many p ih =>
    obtain ⟨hr, hp⟩ := Bool.and_eq_true _ _ ▸ h
    induction hw : s.weight using Nat.strongRecOn generalizing s with
    | ind n ihn =>
      subst hw
      refine many (ih below later hp) fun s' hs' => ?_
      have hlt := hs'.weight_lt rfl hr
      have hle := Nat.le_of_lt hlt
      exact ihn _ hlt (fun x s'' hx hs'' => below x s'' hx (Nat.le_trans hs'' hle))
        (fun x s'' hs'' => later x s'' (Nat.lt_of_lt_of_le hs'' hle)) rfl
  | attempt p ih => exact attempt (ih below later h)
  | phrase x => exact below x s (of_decide_eq_true h) (Nat.le_refl _)

end Pattern.Settles

/-- Every search for a phrase has an outcome. -/
theorem Phrase.runs_total (x : Phrase) (s : Session) : (Pattern.phrase x).Settles s := by
  induction hw : s.weight using Nat.strongRecOn generalizing x s with
  | ind n ihn =>
    subst hw
    have later : ∀ (x : Phrase) s', s'.weight < s.weight → (Pattern.phrase x).Settles s' :=
      fun x s' h => ihn _ h x s' rfl
    clear ihn
    induction hr : x.rank using Nat.strongRecOn generalizing x s with
    | ind r ihr =>
      subst hr
      obtain ⟨_, _, h⟩ := Pattern.Settles.of_guarded
        (fun y s' hy hs' => ihr _ hy y s'
          (fun z s'' hz => later z s'' (Nat.lt_of_lt_of_le hz hs')) rfl)
        later x.pattern_guarded
      exact ⟨_, _, .phrase h⟩

end Scriptlet
