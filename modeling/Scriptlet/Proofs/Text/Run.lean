/-
Scriptlet.Proofs.Text.Run — runs of characters in a text, and where they end.

A line break may be two characters, and what is read of a text never ends between
them: `Text.Unbroken`. With this in mind a run is known by what lies behind it.
`Text.Run test run rest` says that the characters of `run` pass a test and that the
next logical character does not; the text determines such a run (`Text.Run.unique`),
and `Cursor.advanceWhile` reads it (`Cursor.run_advanceWhile`).

What follows a run matters only by its first logical character. So a run stays what it
is if the text is cut off behind it (`Text.Run.cut`), and if what follows is continued
(`Text.Run.extend`).
-/
import Scriptlet.Proofs.Source.Reading

namespace Scriptlet

namespace Text

/-! ## Line breaks of two characters -/

/-- The text is a line break. -/
def IsLineBreak (text : List Char) : Prop :=
  text = ['\n'] ∨ text = ['\r', '\n']

/-- The first logical character of a text. -/
def firstLogical? : List Char → Option Char
  | [] => none
  | x :: rest => if x = '\r' ∧ rest.head? = some '\n' then some '\n' else some x

/-- The two texts do not meet inside a line break. -/
def Unbroken (text rest : List Char) : Prop :=
  text.getLast? = some '\r' → rest.head? ≠ some '\n'

theorem unbroken_nil (text : List Char) : Unbroken text [] := by
  simp [Unbroken]

theorem unbroken_of_getLast? {text rest : List Char} (h : text.getLast? ≠ some '\r') :
    Unbroken text rest :=
  fun hr => absurd hr h

/-- Of the first text only its end matters. -/
theorem unbroken_append_iff {text text' rest : List Char} (hne : text' ≠ []) :
    Unbroken (text ++ text') rest ↔ Unbroken text' rest := by
  rw [Unbroken, Unbroken, List.getLast?_append, List.getLast?_eq_some_getLast hne,
    Option.some_or]

/-- Nothing is broken by a text put in front, if it does not end in half a line break. -/
theorem Unbroken.prepend {text text' rest : List Char} (h : Unbroken text' rest)
    (hr : text.getLast? ≠ some '\r') : Unbroken (text ++ text') rest := by
  cases text' with
  | nil => exact unbroken_of_getLast? (by simpa using hr)
  | cons x text' => exact (unbroken_append_iff (by simp)).2 h

theorem Unbroken.cons {x : Char} {text rest : List Char} (h : Unbroken text rest) (hx : x ≠ '\r') :
    Unbroken (x :: text) rest := by
  have hr : [x].getLast? ≠ some '\r' := by simpa using hx
  exact h.prepend hr

/-- Of the second text only its beginning matters. -/
theorem Unbroken.of_append {text rest rest' : List Char} (h : Unbroken text (rest ++ rest')) :
    Unbroken text rest := by
  intro hr hn
  exact h hr (by rw [List.head?_append, hn, Option.some_or])

theorem firstLogical?_eq_none_iff {rest : List Char} : firstLogical? rest = none ↔ rest = [] := by
  cases rest with
  | nil => simp [firstLogical?]
  | cons x rest => simp only [firstLogical?]; split <;> simp

theorem firstLogical?_cons {x : Char} (rest : List Char) (hx : x ≠ '\r') :
    firstLogical? (x :: rest) = some x := by
  simp [firstLogical?, hx]

/-- The first logical character is a line feed where a line break comes first. -/
theorem lineBreak_of_firstLogical? {rest : List Char} (h : firstLogical? rest = some '\n') :
    ∃ lineBreak, IsLineBreak lineBreak ∧ lineBreak <+: rest := by
  cases rest with
  | nil => cases h
  | cons x rest =>
    simp only [firstLogical?] at h
    split at h
    · next hbreak =>
      obtain ⟨rfl, hhead⟩ := hbreak
      obtain ⟨rest, rfl⟩ := List.head?_eq_some_iff.1 hhead
      exact ⟨_, .inr rfl, rest, rfl⟩
    · cases h
      exact ⟨_, .inl rfl, rest, rfl⟩

/-- What is put behind a text does not change its first logical character, unless it
completes a line break. -/
theorem firstLogical?_append {text rest : List Char} (hne : text ≠ [])
    (h : Unbroken text rest) : firstLogical? (text ++ rest) = firstLogical? text := by
  obtain ⟨x, text, rfl⟩ := List.exists_cons_of_ne_nil hne
  cases text with
  | cons y text => rfl
  | nil =>
    have hbreak : ¬(x = '\r' ∧ rest.head? = some '\n') := fun ⟨hx, hn⟩ => h (by simp [hx]) hn
    simp [firstLogical?, hbreak]

/-- To a test that does not tell a carriage return from a line feed, a line break of two
characters is as good as its first. -/
theorem any_firstLogical? (test : Char → Bool) (h : test '\r' = test '\n') (rest : List Char) :
    (firstLogical? rest).any test = rest.head?.any test := by
  cases rest with
  | nil => rfl
  | cons x rest =>
    simp only [firstLogical?]
    split
    · next hbreak => simp [hbreak.1, h]
    · rfl

/-! ## Runs -/

/-- All characters of the run pass the test, and it goes no further: the logical
character behind it does not pass. -/
structure Run (test : Char → Bool) (run rest : List Char) : Prop where
  all : ∀ x ∈ run, test x = true
  stops : ∀ x ∈ firstLogical? rest, test x = false
  unbroken : Unbroken run rest

namespace Run

variable {test : Char → Bool} {run rest run' rest' : List Char}

/-- A character that passes the test does not come behind the run. -/
theorem not_longer {x : Char} {more : List Char} (h : Run test run (x :: more ++ rest'))
    (hall : ∀ y ∈ x :: more, test y = true) (hunbroken : Unbroken (run ++ x :: more) rest') :
    False := by
  have hx : test x = true := hall x (by simp)
  by_cases hbreak : x = '\r' ∧ (more ++ rest').head? = some '\n'
  · have hstop : test '\n' = false := h.stops '\n' (by simp [firstLogical?, hbreak])
    cases more with
    | nil =>
      obtain ⟨rfl, hn⟩ := hbreak
      exact hunbroken (by simp) hn
    | cons y more =>
      obtain rfl : y = '\n' := by simpa using hbreak.2
      have hy : test '\n' = true := hall '\n' (by simp)
      rw [hstop] at hy
      cases hy
  · have hstop : test x = false :=
      h.stops x (by rw [List.cons_append, firstLogical?, if_neg hbreak]; rfl)
    rw [hstop] at hx
    cases hx

/-- Of all beginnings of the text that pass the test and do not end in half a line break,
the run is the longest. -/
theorem longest (h : Run test run rest) (heq : run ++ rest = run' ++ rest')
    (hall : ∀ x ∈ run', test x = true) (hunbroken : Unbroken run' rest') : run' <+: run := by
  rcases List.append_eq_append_iff.1 heq with ⟨more, rfl, rfl⟩ | ⟨more, rfl, rfl⟩
  · cases more with
    | nil => simp
    | cons x more =>
      exact (h.not_longer (fun y hy => hall y (List.mem_append_right _ hy)) hunbroken).elim
  · exact List.prefix_append ..

/-- A text has one run. -/
theorem unique (h : Run test run rest) (h' : Run test run' rest')
    (heq : run ++ rest = run' ++ rest') : run = run' ∧ rest = rest' := by
  have hlonger := h.longest heq h'.all h'.unbroken
  have hshorter := h'.longest heq.symm h.all h.unbroken
  obtain rfl := hshorter.eq_of_length_le hlonger.length_le
  exact ⟨rfl, List.append_cancel_left heq⟩

/-- If the test does not tell a carriage return from a line feed, the character behind the
run does not pass either. -/
theorem stops_head? (h : Run test run rest) (htest : test '\r' = test '\n') :
    ∀ x ∈ rest.head?, test x = false := by
  have hstop : rest.head?.any test = false := by
    rw [← any_firstLogical? test htest, Option.any_eq_false]
    exact h.stops
  rwa [Option.any_eq_false] at hstop

/-- Then the run is all the characters before the first one that does not pass. -/
theorem takeWhile_eq (h : Run test run rest) (htest : test '\r' = test '\n') :
    (run ++ rest).takeWhile test = run := by
  rw [List.takeWhile_append_of_pos h.all]
  cases rest with
  | nil => simp
  | cons x rest => simp [h.stops_head? htest x rfl]

/-- A run stays a run if the text is cut off behind it. -/
theorem cut (h : Run test run (rest ++ rest')) (hcut : Unbroken rest rest') :
    Run test run rest := by
  refine ⟨h.all, ?_, h.unbroken.of_append⟩
  cases rest with
  | nil => simp [firstLogical?]
  | cons x rest =>
    rw [← firstLogical?_append (by simp) hcut]
    exact h.stops

/-- A run that something follows stays a run if the text is continued. -/
theorem extend (h : Run test run rest) (hne : rest ≠ []) (hcut : Unbroken rest rest') :
    Run test run (rest ++ rest') := by
  refine ⟨h.all, ?_, ?_⟩
  · rw [firstLogical?_append hne hcut]
    exact h.stops
  · obtain ⟨x, rest, rfl⟩ := List.exists_cons_of_ne_nil hne
    exact h.unbroken

/-- A run at the end of a text stays a run if the text is continued by a line feed that
does not pass the test. -/
theorem lineFeed (h : Run test run []) (htest : test '\n' = false)
    (hlast : run.getLast? ≠ some '\r') (rest : List Char) : Run test run ('\n' :: rest) := by
  refine ⟨h.all, fun x hx => ?_, unbroken_of_getLast? hlast⟩
  rw [firstLogical?_cons rest (by decide)] at hx
  cases hx
  exact htest

end Run

end Text

/-! ## Reading characters and runs -/

namespace Cursor

open Text

variable {c c' : Cursor} {x : Char} {test : Char → Bool} {text rest : List Char}

/-- The cursor behind a text, if the text comes next. -/
def past (c : Cursor) (text : List Char) : Cursor :=
  ⟨c.rest.drop text.length, c.pos.along text⟩

theorem Reads.eq_past (h : c.Reads text c') : c' = c.past text := by
  rw [past, h.rest_eq, List.drop_left, ← h.pos_eq]

theorem reads_past (h : c.rest = text ++ rest) : c.Reads text (c.past text) :=
  ⟨by rw [past, h, List.drop_left], rfl⟩

theorem rest_past (h : c.rest = text ++ rest) : (c.past text).rest = rest := by
  rw [past, h, List.drop_left]

theorem past_past (c : Cursor) (text text' : List Char) :
    (c.past text).past text' = c.past (text ++ text') := by
  simp [past, Position.along_append]

theorem map_fst_next? (c : Cursor) : c.next?.map Prod.fst = firstLogical? c.rest := by
  obtain ⟨rest, pos⟩ := c
  unfold next?
  split
  · next heq => cases heq; rfl
  · next heq => cases heq; rfl
  · next heq => cases heq; simp [firstLogical?]
  · next hcrlf _ heq =>
    cases heq
    rw [firstLogical?, if_neg]
    · rfl
    · rintro ⟨rfl, hn⟩
      obtain ⟨tail, rfl⟩ := List.head?_eq_some_iff.1 hn
      exact hcrlf tail rfl rfl

theorem next?_cons (h : c.rest = x :: rest) (hx : x ≠ '\r') : c.next? = some (x, c.past [x]) := by
  obtain ⟨full, pos⟩ := c
  obtain rfl : full = x :: rest := h
  unfold next?
  split
  · next heq => cases heq
  · next heq =>
    cases heq
    exact absurd rfl hx
  · next heq =>
    cases heq
    rfl
  · next hlineFeed heq =>
    cases heq
    have hstep : pos.step x = pos.forward := if_neg hlineFeed
    simp [past, hstep]

/-- A logical character is read whole. -/
theorem reads_next?_unbroken (h : c.next? = some (x, c')) :
    ∃ text, (text = [x] ∨ x = '\n' ∧ text = ['\r', '\n']) ∧ c.Reads text c' ∧
      Unbroken text c'.rest := by
  obtain ⟨text, htext, hreads⟩ := reads_next? h
  refine ⟨text, htext, hreads, ?_⟩
  rcases htext with rfl | ⟨-, rfl⟩
  · intro hr hn
    obtain rfl : x = '\r' := by simpa using hr
    have hfirst := map_fst_next? c
    rw [h, hreads.rest_eq] at hfirst
    simp [firstLogical?, hn] at hfirst
  · exact unbroken_of_getLast? (by simp)

/-- A character that is no line feed is read by itself. -/
theorem reads_nextIf? (h : c.nextIf? test = some (x, c')) (htest : test '\n' = false) :
    c.Reads [x] c' ∧ test x = true := by
  rw [nextIf?, Option.filter_eq_some_iff] at h
  obtain ⟨hnext, hx⟩ := h
  obtain ⟨text, rfl | ⟨rfl, -⟩, hreads⟩ := reads_next? hnext
  · exact ⟨hreads, hx⟩
  · rw [htest] at hx
    cases hx

theorem reads_accept? (h : c.accept? x = some c') (hx : x ≠ '\n') : c.Reads [x] c' := by
  rw [accept?, Option.map_eq_some_iff] at h
  obtain ⟨⟨y, c''⟩, h, rfl⟩ := h
  obtain ⟨hreads, hy⟩ := reads_nextIf? h (by simpa using hx.symm)
  rw [← eq_of_beq hy]
  exact hreads

theorem isSome_nextIf? (c : Cursor) (test : Char → Bool) :
    (c.nextIf? test).isSome = (firstLogical? c.rest).any test := by
  rw [nextIf?, ← map_fst_next?]
  cases c.next? with
  | none => rfl
  | some step => cases h : test step.1 <;> simp [Option.filter, h]

theorem isSome_accept? (c : Cursor) (x : Char) :
    (c.accept? x).isSome = (firstLogical? c.rest).any (· == x) := by
  rw [accept?, Option.isSome_map, isSome_nextIf?]

/-- Reading on while a test is passed reads a run. The test must pass a carriage return
if it passes a line feed, for it sees the line feed only. -/
theorem run_advanceWhile (test : Char → Bool) (htest : test '\n' = true → test '\r' = true)
    (c : Cursor) :
    ∃ run, c.Reads run (c.advanceWhile test) ∧ Run test run (c.advanceWhile test).rest := by
  fun_induction advanceWhile test c with
  | case1 c x c' h ih =>
    obtain ⟨run, hreads, hrun⟩ := ih
    rw [nextIf?, Option.filter_eq_some_iff] at h
    obtain ⟨hnext, hx⟩ := h
    obtain ⟨text, htext, hfirst, hunbroken⟩ := reads_next?_unbroken hnext
    refine ⟨text ++ run, hfirst.trans hreads, ?_, hrun.stops, ?_⟩
    · intro y hy
      rcases List.mem_append.1 hy with hy | hy
      · rcases htext with rfl | ⟨rfl, rfl⟩
        · rw [List.mem_singleton.1 hy]
          exact hx
        · simp only [List.mem_cons, List.not_mem_nil, or_false] at hy
          rcases hy with rfl | rfl
          · exact htest hx
          · exact hx
      · exact hrun.all y hy
    · cases run with
      | nil =>
        rw [hreads.eq_of_nil, List.append_nil]
        exact hunbroken
      | cons y run => exact (unbroken_append_iff (by simp)).2 hrun.unbroken
  | case2 c h =>
    refine ⟨[], .refl c, by simp, ?_, by simp [Unbroken]⟩
    intro x hx
    rw [← map_fst_next?] at hx
    obtain ⟨⟨y, c'⟩, hnext, rfl⟩ := Option.map_eq_some_iff.1 hx
    rw [nextIf?, Option.filter_eq_none_iff] at h
    simpa using h _ hnext

end Cursor

end Scriptlet
