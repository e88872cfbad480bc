/-
Scriptlet.Proofs.Session.Index — a session that stays in its mode is an index into
the tokens of the source.

`Reader` reads a list that is there in full: it knows its place, the places marked,
and how many items it has ever looked at. `Session.Follows mode source s r` says that
a session and a reader of the one-pass tokenization have come equally far, and that
the session has read the batches that were needed for it and none besides
(`Batch.Needed`). Every step keeps this (`Session.Follows.perform`), so the session
answers as the reader does (`Session.follows_reader`).

The step that matters is `Session.Follows.fill`. A batch is read only if nothing is
pending; then the place is the end of the log, every item of the log has been looked
at, and the first item of the batch is the one that was asked for.
-/
import Scriptlet.Proofs.Session.Run

namespace Scriptlet

/-! ## Batches in a row -/

namespace Batch

/-- The batches that are read from one cursor on, each from where the one before it
stopped, and the cursor behind the last of them. -/
inductive Series (rules : List Rule) (c : Cursor) : List Batch → Cursor → Prop where
  | none : Series rules c [] c
  | more {batches : List Batch} {c' : Cursor} (earlier : Series rules c batches c')
      (left : c'.rest ≠ []) :
      Series rules c (batches ++ [scan rules c']) (scan rules c').stop

/-- The number of tokens in some batches. -/
def count (batches : List Batch) : Nat :=
  (batches.flatMap lexemes).length

theorem count_concat (batches : List Batch) (b : Batch) :
    count (batches ++ [b]) = count batches + b.lexemes.length := by
  simp [count]

/-- The batches hold the given number of tokens, and without the last batch they
would not: the last of these tokens is in the last batch. -/
structure Needed (batches : List Batch) (n : Nat) : Prop where
  enough : n ≤ count batches
  least : ∀ earlier last, batches = earlier ++ [last] → count earlier < n

theorem needed_nil : Needed [] 0 :=
  ⟨Nat.le_refl _, by simp⟩

/-- More tokens of the last batch need no more batches. -/
theorem Needed.mono {batches : List Batch} {n m : Nat} (h : Needed batches n) (hnm : n ≤ m)
    (hm : m ≤ count batches) : Needed batches m :=
  ⟨hm, fun earlier last he => Nat.lt_of_lt_of_le (h.least earlier last he) hnm⟩

/-- The first token behind some batches needs the next batch. -/
theorem needed_concat {batches : List Batch} {b : Batch} (hb : b.lexemes ≠ []) :
    Needed (batches ++ [b]) (count batches + 1) := by
  have hlen := List.length_pos_iff.2 hb
  refine ⟨by rw [count_concat]; omega, ?_⟩
  intro earlier last he
  obtain ⟨rfl, -⟩ := List.append_inj' he rfl
  exact Nat.lt_succ_self _

theorem before_stop (rules : List Rule) (c : Cursor) : c.Before (scan rules c).stop :=
  ⟨_, (Lexeme.chain_scan rules c).reads⟩

/-- At the end of the source a batch is empty and leads nowhere. -/
theorem scan_end (rules : List Rule) {c : Cursor} (h : c.rest = []) :
    (scan rules c).lexemes = [] ∧ (scan rules c).stop = c := by
  have hw := weight_scan rules c
  rw [h] at hw
  obtain ⟨text, hread⟩ := before_stop rules c
  obtain ⟨rfl, -⟩ := List.append_eq_nil_iff.1 (hread.rest_eq.symm.trans h)
  refine ⟨List.eq_nil_of_length_eq_zero ?_, hread.eq_of_nil⟩
  simp only [List.length_nil] at hw
  omega

end Batch

/-! ## Reading a list by index -/

/-- A place in a list, the places marked, newest first, and the number of items that
have been looked at, counted from the front to the furthest of them. -/
structure Reader where
  place : Nat
  marks : List Nat
  seen : Nat

namespace Session

/-- What may be asked of a session that stays in its mode. -/
inductive Step where
  | peek
  | consume
  | mark
  | rewind
  | release

/-- The step as one of the things that may be asked of any session. -/
def Step.action : Step → Action
  | .peek => .peek
  | .consume => .consume
  | .mark => .mark
  | .rewind => .rewind
  | .release => .release

end Session

namespace Reader

/-- A reader before the first item. -/
def start : Reader :=
  ⟨0, [], 0⟩

variable (tokens : List Token)

/-- Looks at the item at the place, if there is one. -/
def look (r : Reader) : Reader :=
  if r.place < tokens.length then { r with seen := max r.seen (r.place + 1) } else r

/-- Goes on to the next item, if there is one at the place. -/
def advance (r : Reader) : Reader :=
  if r.place < tokens.length then { r with place := r.place + 1 } else r

@[simp] theorem place_look (r : Reader) : (r.look tokens).place = r.place := by
  unfold look
  split <;> rfl

@[simp] theorem marks_look (r : Reader) : (r.look tokens).marks = r.marks := by
  unfold look
  split <;> rfl

theorem place_advance (r : Reader) :
    (r.advance tokens).place = if r.place < tokens.length then r.place + 1 else r.place := by
  unfold advance
  split <;> rfl

@[simp] theorem marks_advance (r : Reader) : (r.advance tokens).marks = r.marks := by
  unfold advance
  split <;> rfl

@[simp] theorem seen_advance (r : Reader) : (r.advance tokens).seen = r.seen := by
  unfold advance
  split <;> rfl

/-- What was looked at may be gone past. -/
theorem place_advance_look_le {r : Reader} (h : r.place ≤ r.seen) :
    ((r.look tokens).advance tokens).place ≤ (r.look tokens).seen := by
  rw [place_advance, place_look]
  unfold look
  split
  · exact Nat.le_max_right ..
  · exact h

/-- Does one thing that was asked. -/
def perform (r : Reader) : Session.Step → Session.Reply × Reader
  | .peek => (.token tokens[r.place]?, r.look tokens)
  | .consume => (.token tokens[r.place]?, (r.look tokens).advance tokens)
  | .mark => (.done, { r with marks := r.place :: r.marks })
  | .rewind =>
    match r.marks with
    | place :: marks => (.done, { r with place := place, marks := marks })
    | [] => (.refused .rewindWithoutMark, r)
  | .release =>
    match r.marks with
    | _ :: marks => (.done, { r with marks := marks })
    | [] => (.refused .releaseWithoutMark, r)

/-- The reader after some steps from the front. -/
def after (steps : List Session.Step) : Reader :=
  steps.foldl (fun r step => (r.perform tokens step).2) start

end Reader

/-! ## A session and its reader -/

namespace Session

/-- A session and a reader of all tokens of the source have come equally far, and the
session has read what was needed for it. -/
structure Follows (mode : Mode) (source : String) (s : Session) (r : Reader) : Prop where
  orderly : s.log.Orderly
  mode_eq : s.mode = mode
  stream_eq : s.stream = Lexeme.readFrom mode.rules (.start source)
  place_eq : s.log.next = r.place
  marks_eq : s.log.marks = r.marks
  place_le : r.place ≤ r.seen
  read : ∃ batches, Batch.Series mode.rules (.start source) batches s.cursor ∧
    s.log.items.toList = batches.flatMap Batch.lexemes ∧ Batch.Needed batches r.seen

theorem follows_start (mode : Mode) (source : String) :
    Follows mode source (start mode source) .start := by
  refine ⟨RewindLog.orderly_empty, rfl, rfl, rfl, rfl, Nat.le_refl _, [], .none, rfl, ?_⟩
  exact Batch.needed_nil

/-- At the end of the source, asking for a batch has no effect. -/
theorem fill_of_end {s : Session} (h : s.cursor.rest = []) : s.fill = s := by
  obtain ⟨hl, hc⟩ := Batch.scan_end s.mode.rules h
  unfold fill
  split
  · simp [hl, hc, RewindLog.append]
  · rfl

/-- The cursor only moves on. -/
theorem before_perform (s : Session) (step : Step) :
    s.cursor.Before (s.perform step.action).2.cursor := by
  have hfill : s.cursor.Before s.fill.cursor := by
    unfold Session.fill
    split
    · exact Batch.before_stop ..
    · exact .refl _
  cases step with
  | peek => exact hfill
  | consume => exact hfill
  | mark => exact .refl _
  | rewind =>
    obtain ⟨next, marks, h⟩ := settle_rewind s
    show s.cursor.Before (s.settle s.rewind).2.cursor
    rw [h]
    exact .refl _
  | release =>
    obtain ⟨next, marks, h⟩ := settle_release s
    show s.cursor.Before (s.settle s.release).2.cursor
    rw [h]
    exact .refl _

namespace Follows

variable {mode : Mode} {source : String} {s : Session} {r : Reader}

theorem tokens_eq (h : Follows mode source s r) :
    s.stream.map Lexeme.token = tokenize mode source := by
  rw [h.stream_eq]
  rfl

theorem length_eq (h : Follows mode source s r) :
    s.stream.length = (tokenize mode source).length := by
  rw [← h.tokens_eq, List.length_map]

/-- The next token of the session is the one at the reader's place. -/
theorem token_eq (h : Follows mode source s r) :
    s.stream[s.log.next]?.map Lexeme.token = (tokenize mode source)[r.place]? := by
  rw [← List.getElem?_map, h.tokens_eq, h.place_eq]

/-- Looking at a token that is there changes only how far the list has been seen. -/
theorem look_of_lt (h : Follows mode source s r) (hlt : s.log.next < s.stream.length) :
    r.look (tokenize mode source) = { r with seen := max r.seen (r.place + 1) } := by
  rw [Reader.look, if_pos (by rw [← h.length_eq, ← h.place_eq]; exact hlt)]

/-- If a token is pending, it has been read already. -/
theorem look_of_unread (h : Follows mode source s r) (hu : 0 < s.log.unread) :
    Follows mode source s (r.look (tokenize mode source)) := by
  obtain ⟨batches, hseries, hitems, hneeded⟩ := h.read
  have hsize : s.log.items.size = Batch.count batches := by
    rw [Batch.count, ← hitems, Array.length_toList]
  have hlt : s.log.next < s.log.items.size := by
    unfold RewindLog.unread at hu
    omega
  have hplace := h.place_eq
  have hseen := hneeded.enough
  have hstream : s.log.next < s.stream.length := by
    rw [stream, List.length_append, Array.length_toList]
    omega
  rw [h.look_of_lt hstream]
  refine ⟨h.orderly, h.mode_eq, h.stream_eq, h.place_eq, h.marks_eq, ?_, batches, hseries,
    hitems, hneeded.mono (Nat.le_max_left ..) ?_⟩
  · exact Nat.le_trans h.place_le (Nat.le_max_left ..)
  · exact Nat.max_le.2 ⟨hseen, by omega⟩

/-- If nothing is pending and the source has ended, there is nothing to look at. -/
theorem look_of_end (h : Follows mode source s r) (hu : s.log.unread = 0)
    (hc : s.cursor.rest = []) : r.look (tokenize mode source) = r := by
  have hlen : s.stream.length = s.log.items.size := by
    rw [stream, Lexeme.readFrom_end _ hc, List.append_nil, Array.length_toList]
  have hplace := h.place_eq
  rw [Reader.look, if_neg]
  rw [← h.length_eq]
  unfold RewindLog.unread at hu
  omega

/-- If nothing is pending and the source goes on, the next batch is needed. -/
theorem look_of_batch (h : Follows mode source s r) (hu : s.log.unread = 0)
    (hc : s.cursor.rest ≠ []) :
    Follows mode source s.fill (r.look (tokenize mode source)) := by
  obtain ⟨batches, hseries, hitems, hneeded⟩ := h.read
  have hbatch := (Batch.scan_progress s.mode.rules hc).1
  have hsize : s.log.items.size = Batch.count batches := by
    rw [Batch.count, ← hitems, Array.length_toList]
  have hplace := h.place_eq
  have hnext : s.log.next = Batch.count batches := by
    have := h.orderly.next_le
    unfold RewindLog.unread at hu
    omega
  have hseen : max r.seen (r.place + 1) = Batch.count batches + 1 := by
    have := hneeded.enough
    omega
  have hstream : s.log.next < s.stream.length := by
    have := List.length_pos_iff.2 hbatch
    rw [stream, Lexeme.readFrom_batch _ hc]
    simp only [List.length_append, Array.length_toList]
    omega
  rw [h.look_of_lt hstream, hseen]
  refine ⟨orderly_fill h.orderly, (mode_fill s).trans h.mode_eq,
    (stream_fill s).trans h.stream_eq, (next_fill s).trans hplace,
    (marks_fill s).trans h.marks_eq, ?_, batches ++ [Batch.scan mode.rules s.cursor], ?_, ?_, ?_⟩
  · show r.place ≤ Batch.count batches + 1
    omega
  · rw [fill, if_pos hu, h.mode_eq]
    exact .more hseries hc
  · rw [fill, if_pos hu, h.mode_eq]
    show (s.log.append _).items.toList = _
    rw [RewindLog.toList_append, hitems, List.flatMap_append, List.flatMap_singleton]
  · rw [h.mode_eq] at hbatch
    exact Batch.needed_concat hbatch

/-- Asking for a batch is looking at the next token. -/
theorem fill (h : Follows mode source s r) :
    Follows mode source s.fill (r.look (tokenize mode source)) := by
  by_cases hu : s.log.unread = 0
  · by_cases hc : s.cursor.rest = []
    · rw [h.look_of_end hu hc, fill_of_end hc]
      exact h
    · exact h.look_of_batch hu hc
  · rw [fill_of_unread (by omega)]
    exact h.look_of_unread (by omega)

/-- Handing out a token is looking at it and going on. -/
theorem consume (h : Follows mode source s r) :
    Follows mode source s.consume.2
      ((r.look (tokenize mode source)).advance (tokenize mode source)) := by
  obtain ⟨batches, hseries, hread, hneeded⟩ := h.fill.read
  have hplace := h.place_eq
  have hlen := h.length_eq
  refine ⟨orderly_consume h.orderly, (mode_consume s).trans h.mode_eq,
    (stream_consume s).trans h.stream_eq, ?_, ?_, ?_, batches, hseries, ?_, ?_⟩
  · rw [next_consume h.orderly, Reader.place_advance, Reader.place_look, hplace, hlen]
  · rw [marks_consume, Reader.marks_advance, Reader.marks_look, h.marks_eq]
  · rw [Reader.seen_advance]
    exact Reader.place_advance_look_le _ h.place_le
  · rw [items_consume]
    exact hread
  · rw [Reader.seen_advance]
    exact hneeded

/-- Going back to a mark goes back over what was looked at, so no batch is missing. -/
theorem rewind (h : Follows mode source s r) :
    (s.settle s.rewind).1 = (r.perform (tokenize mode source) .rewind).1 ∧
      Follows mode source (s.settle s.rewind).2
        (r.perform (tokenize mode source) .rewind).2 := by
  obtain ⟨cursor, mode', items, next, marks⟩ := s
  obtain ⟨place, marks', seen⟩ := r
  obtain rfl : marks = marks' := h.marks_eq
  cases marks with
  | nil => exact ⟨rfl, h⟩
  | cons last marks =>
    have hback : last ≤ next := h.orderly.marks_le last List.mem_cons_self
    have hplace : next = place := h.place_eq
    have hseen : place ≤ seen := h.place_le
    refine ⟨rfl, orderly_rewind h.orderly rfl, h.mode_eq, h.stream_eq, rfl, rfl, ?_, h.read⟩
    show last ≤ seen
    omega

theorem release (h : Follows mode source s r) :
    (s.settle s.release).1 = (r.perform (tokenize mode source) .release).1 ∧
      Follows mode source (s.settle s.release).2
        (r.perform (tokenize mode source) .release).2 := by
  obtain ⟨cursor, mode', items, next, marks⟩ := s
  obtain ⟨place, marks', seen⟩ := r
  obtain rfl : marks = marks' := h.marks_eq
  cases marks with
  | nil => exact ⟨rfl, h⟩
  | cons last marks =>
    exact ⟨rfl, orderly_release h.orderly rfl, h.mode_eq, h.stream_eq, h.place_eq, rfl,
      h.place_le, h.read⟩

/-- A step of the session is a step of the reader, and the answers agree. -/
theorem perform (h : Follows mode source s r) (step : Step) :
    (s.perform step.action).1 = (r.perform (tokenize mode source) step).1 ∧
      Follows mode source (s.perform step.action).2
        (r.perform (tokenize mode source) step).2 := by
  cases step with
  | peek => exact ⟨congrArg Reply.token ((peek_fst h.orderly).trans h.token_eq), h.fill⟩
  | consume => exact ⟨congrArg Reply.token ((consume_fst h.orderly).trans h.token_eq), h.consume⟩
  | mark =>
    refine ⟨rfl, h.orderly.mark, h.mode_eq, h.stream_eq, h.place_eq, ?_, h.place_le, h.read⟩
    show s.log.next :: s.log.marks = r.place :: r.marks
    rw [h.place_eq, h.marks_eq]
  | rewind => exact h.rewind
  | release => exact h.release

theorem run (h : Follows mode source s r) (steps : List Step) :
    Follows mode source (s.run (steps.map Step.action))
      (steps.foldl (fun r step => (r.perform (tokenize mode source) step).2) r) := by
  induction steps generalizing s r with
  | nil => exact h
  | cons step steps ih => exact ih (h.perform step).2

end Follows

/-- A session that stays in its mode is an index into the tokens of the source: what
was handed out are the tokens before the place, and every step has the answer of a
reader that has all tokens before it. The cursor only moves on, and the batches up to
it are those that hold the tokens looked at so far. -/
theorem follows_reader (mode : Mode) (source : String) (steps : List Step) (step : Step) :
    let tokens := tokenize mode source
    let s := after mode source (steps.map Step.action)
    let r := Reader.after tokens steps
    s.consumed = tokens.take r.place ∧ r.place ≤ tokens.length ∧ s.log.marks = r.marks ∧
      (s.perform step.action).1 = (r.perform tokens step).1 ∧
      s.cursor.Before (s.perform step.action).2.cursor ∧
      ∃ batches, Batch.Series mode.rules (.start source) batches s.cursor ∧
        s.log.items.toList = batches.flatMap Batch.lexemes ∧ Batch.Needed batches r.seen := by
  intro tokens s r
  have h : Follows mode source s r := (follows_start mode source).run steps
  refine ⟨?_, ?_, h.marks_eq, (h.perform step).1, before_perform s step, h.read⟩
  · rw [consumed_eq h.orderly, List.map_take, h.tokens_eq, h.place_eq]
  · rw [← h.place_eq, ← h.length_eq]
    exact next_le_stream h.orderly

end Session

end Scriptlet
