/-
Scriptlet.Proofs.Session.Staying — setting the mode that a session is in already: no token
is lost, and all that comes of it are reports that are handed out again.

`Session.Steady mode source s` is the invariant. The tokens handed out and to come are an
echo of those of the source (`Token.Echoes`), in which a report may stand several times in
a row. Steps that do not set the mode leave these tokens alone
(`Session.Sound.tokens_perform`). Setting the mode keeps those handed out and reads again
from behind them, which is a place between tokens of the source, or between copies of a
report (`Session.Steady.setMode`).

`Session.retells_source` says what comes of it for all runs, and where a repeated report
comes from: the mode was set when the report was the last token handed out, and what it is
about was the next one (`Session.SplitsBehind`).
-/
import Scriptlet.Proofs.Piece.Echoes
import Scriptlet.Proofs.Session.Backtracking
import Scriptlet.Proofs.Session.ModeSwitch

namespace Scriptlet.Session

open Token

/-- The step leaves a session in this mode, if it is in it. -/
def Action.staysIn (mode : Mode) : Action → Bool
  | .setMode mode' => mode' = mode
  | .peek | .consume | .mark | .rewind | .release => true

/-- The session stands between a report and what it is about: the report was handed out
last, behind the given tokens, and the token that it is about comes next. -/
structure SplitsBehind (s : Session) (front : List Token) (fault : Token) : Prop where
  consumed : s.consumed = front ++ [fault]
  next : ∃ literal ∈ s.drain.1.head?, fault.Concerns literal

/-- The tokens of a session on the source are an echo of those that the source has in the
mode. -/
structure Steady (mode : Mode) (source : String) (s : Session) : Prop where
  sound : Sound source s
  echoes : Echoes s.tokens (tokenize mode source)

variable {mode : Mode} {source : String} {s : Session} {a b : Token} {front rest : List Token}

theorem steady_start (mode : Mode) (source : String) : Steady mode source (start mode source) where
  sound := sound_start mode source
  echoes := by
    rw [tokens_eq (sound_start mode source).orderly]
    exact .refl _

/-! ## One step -/

/-- What is to come after the mode was set is read from behind the texts handed out. -/
theorem Sound.tokens_setMode (h : Sound source s) (mode : Mode) :
    (s.setMode mode).tokens = s.consumed ++
      (Lexeme.readFrom mode.rules (.standing source (extent s.consumed))).map Lexeme.token := by
  rw [tokens, consumed_setMode,
    drain_of_pending_eq_nil (h.setMode mode).orderly (pending_setMode s mode), h.cursor_setMode]
  rfl

/-- A step does not set the mode, or it sets this one. -/
theorem Action.cases_of_staysIn {action : Action} (h : action.staysIn mode = true) :
    action = .setMode mode ∨ ∃ step : Step, action = step.action := by
  cases action with
  | setMode mode' => exact .inl (congrArg Action.setMode (of_decide_eq_true h))
  | peek => exact .inr ⟨.peek, rfl⟩
  | consume => exact .inr ⟨.consume, rfl⟩
  | mark => exact .inr ⟨.mark, rfl⟩
  | rewind => exact .inr ⟨.rewind, rfl⟩
  | release => exact .inr ⟨.release, rfl⟩

namespace Steady

/-- The tokens handed out echo the first tokens of the source. Behind their texts are read
those that were to come there, or the last report and then those. -/
theorem reread (h : Steady mode source s) :
    ∃ us vs read, tokenize mode source = us ++ vs ∧ Echoes s.consumed us ∧
      (s.setMode mode).tokens = s.consumed ++ read ∧
        (read = vs ∨ ∃ t ∈ us.getLast?, t.repeats t = true ∧ read = t :: vs) := by
  obtain ⟨us, vs, htokens, hfront, -⟩ := h.echoes.of_append
  have hextent : extent s.consumed = extent us :=
    hfront.extent_eq fun t ht reported => by
      obtain ⟨front, rest, rfl⟩ := List.append_of_mem ht
      rw [List.append_assoc] at htokens
      exact (concerns_tokenize htokens reported).1
  refine ⟨us, vs, _, htokens, hfront, h.sound.tokens_setMode mode, ?_⟩
  rw [hextent]
  exact reread_tokenize htokens

theorem setMode (h : Steady mode source s) : Steady mode source (s.setMode mode) where
  sound := h.sound.setMode mode
  echoes := by
    obtain ⟨us, vs, read, htokens, hfront, hset, hread⟩ := h.reread
    rw [hset, htokens]
    rcases hread with rfl | ⟨t, hlast, reported, rfl⟩
    · exact hfront.append (.refl _)
    · rw [List.append_cons]
      exact (hfront.concat hlast reported).append (.refl vs)

theorem perform (h : Steady mode source s) {action : Action} (hstay : action.staysIn mode = true) :
    Steady mode source (s.perform action).2 := by
  rcases Action.cases_of_staysIn hstay with rfl | ⟨step, rfl⟩
  · exact h.setMode
  · refine ⟨h.sound.perform _, ?_⟩
    rw [h.sound.tokens_perform]
    exact h.echoes

theorem run (h : Steady mode source s) {actions : List Action}
    (hstay : ∀ action ∈ actions, action.staysIn mode = true) :
    Steady mode source (s.run actions) := by
  induction actions generalizing s with
  | nil => exact h
  | cons action actions ih =>
    obtain ⟨hfirst, hothers⟩ := List.forall_mem_cons.1 hstay
    exact ih (h.perform hfirst) hothers

/-! ## Where reports are repeated -/

/-- A report that was handed out last is what the session stands behind, or it is repeated
already. -/
theorem splits_or_repeats (h : Steady mode source s) (hconsumed : s.consumed = front ++ [a])
    (reported : a.repeats a = true) :
    s.SplitsBehind front a ∨ ∃ rest, s.tokens = front ++ a :: a :: rest := by
  obtain ⟨us, vs, htokens, hfront, hback⟩ := h.echoes.of_append
  have hlast : us.getLast? = some a := by
    rw [← hfront.getLast?_eq, hconsumed, List.getLast?_concat]
  rcases hback with hback | ⟨t, ht, -, hback⟩
  · obtain ⟨us, rfl⟩ := List.getLast?_eq_some_iff.1 hlast
    rw [List.append_assoc] at htokens
    obtain ⟨-, literal, behind, rfl, hconcerns⟩ := concerns_tokenize htokens reported
    exact .inl ⟨hconsumed, literal, hback.head?_eq, hconcerns⟩
  · obtain rfl : a = t := Option.some.inj (hlast.symm.trans ht)
    obtain ⟨rest, hdrain⟩ := List.head?_eq_some_iff.1 hback.head?_eq
    right
    exact ⟨rest, by rw [tokens, hconsumed, hdrain, List.append_assoc, List.singleton_append]⟩

/-- If a report is repeated after the mode was set, it was repeated in the same place
before, or the session stood behind it. -/
theorem of_repeats_setMode (h : Steady mode source s)
    (htokens : (s.setMode mode).tokens = front ++ a :: b :: rest) (hab : a.repeats b = true) :
    s.SplitsBehind front a ∨ ∃ b' rest', s.tokens = front ++ a :: b' :: rest' ∧
      a.repeats b' = true := by
  obtain ⟨us, vs, read, hsource, -, hset, hread⟩ := h.reread
  obtain ⟨before, hbefore⟩ : ∃ before, tokenize mode source = before ++ read := by
    rcases hread with rfl | ⟨t, hlast, -, rfl⟩
    · exact ⟨us, hsource⟩
    · obtain ⟨us, rfl⟩ := List.getLast?_eq_some_iff.1 hlast
      exact ⟨us, by rw [hsource, List.append_assoc, List.singleton_append]⟩
  -- What is read anew repeats no report by itself.
  have hread (between : List Token) : read ≠ between ++ a :: b :: rest := by
    rintro rfl
    rw [← List.append_assoc] at hbefore
    exact absurd hab (Bool.eq_false_iff.1 (repeats_eq_false hbefore))
  -- So the first of the two tokens was handed out before the mode was set, and it was the
  -- last one then, or both were handed out.
  rw [hset, List.append_eq_append_iff] at htokens
  rcases htokens with ⟨between, -, heq⟩ | ⟨front', hconsumed, heq⟩
  · exact absurd heq (hread between)
  · rcases front' with _ | ⟨t, _ | ⟨next, front'⟩⟩
    · exact absurd heq.symm (hread [])
    · obtain ⟨rfl, -⟩ := List.cons.inj heq
      refine (h.splits_or_repeats hconsumed (repeats_left hab)).imp_right ?_
      rintro ⟨rest, hrepeats⟩
      exact ⟨a, rest, hrepeats, repeats_left hab⟩
    · simp only [List.cons_append, List.cons.injEq] at heq
      obtain ⟨rfl, rfl, -⟩ := heq
      right
      exact ⟨b, front' ++ s.drain.1, by simp [tokens, hconsumed], hab⟩

end Steady

/-! ## All steps -/

theorem after_concat (mode : Mode) (source : String) (actions : List Action) (action : Action) :
    after mode source (actions ++ [action]) = ((after mode source actions).perform action).2 :=
  List.foldl_concat ..

theorem steady_after {actions : List Action}
    (hstay : ∀ action ∈ actions, action.staysIn mode = true) :
    Steady mode source (after mode source actions) :=
  (steady_start mode source).run hstay

/-- A repeated report was not repeated at the start, so there was a step from which on it
was. -/
theorem exists_splitsBehind {actions : List Action}
    (hstay : ∀ action ∈ actions, action.staysIn mode = true)
    (htokens : (after mode source actions).tokens = front ++ a :: b :: rest)
    (hab : a.repeats b = true) :
    ∃ earlier later, actions = earlier ++ .setMode mode :: later ∧
      (after mode source earlier).SplitsBehind front a := by
  induction actions using List.reverseRecOn generalizing b rest with
  | nil =>
    have hstart : (after mode source []).tokens = tokenize mode source :=
      tokens_eq (sound_start mode source).orderly
    exact absurd hab (Bool.eq_false_iff.1 (repeats_eq_false (hstart.symm.trans htokens)))
  | append_singleton actions action ih =>
    obtain ⟨hearlier, hlast⟩ := List.forall_mem_append.1 hstay
    have hsteady : Steady mode source (after mode source actions) := steady_after hearlier
    have hearlier {b : Token} {rest : List Token}
        (h : (after mode source actions).tokens = front ++ a :: b :: rest)
        (hab : a.repeats b = true) :
        ∃ earlier later, actions ++ [action] = earlier ++ .setMode mode :: later ∧
          (after mode source earlier).SplitsBehind front a := by
      obtain ⟨earlier, later, heq, hsplits⟩ := ih hearlier h hab
      exact ⟨earlier, later ++ [action], by simp [heq], hsplits⟩
    rw [after_concat] at htokens
    rcases Action.cases_of_staysIn (hlast action (by simp)) with rfl | ⟨step, rfl⟩
    · rcases hsteady.of_repeats_setMode htokens hab with hsplits | ⟨b', rest', h, hab'⟩
      · exact ⟨actions, [], rfl, hsplits⟩
      · exact hearlier h hab'
    · rw [hsteady.sound.tokens_perform] at htokens
      exact hearlier htokens hab

/-- A session that only ever sets the mode that it is in: with one report left of each run
of repeated ones, its tokens are those of the source. In the mode of HTTP they are so as
they are. Wherever a report is repeated, the mode was set when this report was the last
token handed out, and what it is about the next one. -/
theorem retells_source (mode : Mode) (source : String) (actions : List Action)
    (h : ∀ action ∈ actions, action.staysIn mode = true) :
    let s := after mode source actions
    collapse s.tokens = tokenize mode source ∧
      (mode = .http → s.tokens = tokenize mode source) ∧
      ∀ front a b rest, s.tokens = front ++ a :: b :: rest → a.repeats b = true →
        ∃ earlier later, actions = earlier ++ .setMode mode :: later ∧
          (after mode source earlier).SplitsBehind front a := by
  intro s
  have hs : Steady mode source s := steady_after h
  refine ⟨hs.echoes.collapse_eq (isChain_tokenize mode source), ?_, ?_⟩
  · rintro rfl
    exact hs.echoes.eq_of_silent fun t ht => repeats_http ht
  · intro front a b rest htokens hab
    exact exists_splitsBehind h htokens hab

/-- The mode is set twice with an open string still to come, the second time behind a mark
that is gone back to: the fault comes three times, and the string once. -/
theorem retells_source_behind_mark :
    let actions : List Action :=
      [.consume, .setMode .breakout, .mark, .consume, .setMode .breakout, .rewind]
    let s := after .breakout "'a" actions
    let fault : Token := .ofFault .missingEndQuote ⟨0, 2, 1, 1, 1, 2⟩ ""
    let literal : Token := ⟨.stringLiteral, fault.span, "'a", some (.string "a")⟩
    (∀ action ∈ actions, action.staysIn .breakout = true) ∧
      s.consumed = [fault] ∧ s.tokens = [fault, fault, fault, literal] ∧
      collapse s.tokens = tokenize .breakout "'a" ∧
      ∃ earlier later, actions = earlier ++ .setMode .breakout :: later ∧
        (after .breakout "'a" earlier).SplitsBehind [fault] fault := by
  intro actions s fault literal
  have hstay : ∀ action ∈ actions, action.staysIn .breakout = true := by decide
  have hconsumed : s.consumed = [fault] := by decide +kernel
  have htokens : s.tokens = [fault, fault, fault, literal] := by decide +kernel
  obtain ⟨hcollapse, -, hsplits⟩ := retells_source .breakout "'a" actions hstay
  have hrepeated : fault.repeats fault = true := by decide
  exact ⟨hstay, hconsumed, htokens, hcollapse,
    hsplits [fault] fault fault [literal] htokens hrepeated⟩

end Scriptlet.Session
