/-
Scriptlet.Proofs.Session.Stream — the lexemes of a session as one list: those in
its log, and those that are still to be read from its cursor in its mode.

Reading moves lexemes from the second part of this list into the first and
changes nothing of the list itself (`Session.stream_fill`). So a session that is
read, marked and rewound is a place in a fixed list:

* `Session.peek_fst`, `Session.consume_fst` — the next token is the one at the
  place;
* `Session.stream_consume`, `Session.next_consume` — handing it out moves the
  place on by one;
* `Session.stream_rewind`, `Session.stream_release` — marks leave the list alone;
* `Session.consumed_eq`, `Session.drain_fst` — what was handed out lies before
  the place, and what is handed out to the end lies behind it.
-/
import Scriptlet.Proofs.RewindLog.Order
import Scriptlet.Session
import Scriptlet.Tokenization

namespace Scriptlet

/-- Also at the end, where the batch is empty, a batch comes first. -/
theorem Lexeme.readFrom_eq_scan (rules : List Rule) (c : Cursor) :
    readFrom rules c =
      (Batch.scan rules c).lexemes ++ readFrom rules (Batch.scan rules c).stop := by
  by_cases hc : c.rest = []
  · have hw := Batch.weight_scan rules c
    rw [hc] at hw
    simp only [List.length_nil, Nat.mul_zero] at hw
    have hl : (Batch.scan rules c).lexemes = [] := List.eq_nil_of_length_eq_zero (by omega)
    have hr : (Batch.scan rules c).stop.rest = [] := List.eq_nil_of_length_eq_zero (by omega)
    rw [hl, readFrom_end rules hc, readFrom_end rules hr]
    rfl
  · exact readFrom_batch rules hc

/-- Something is read as long as something is left. -/
theorem Lexeme.rest_eq_nil_of_readFrom {rules : List Rule} {c : Cursor}
    (h : readFrom rules c = []) : c.rest = [] := by
  by_cases hc : c.rest = []
  · exact hc
  · rw [readFrom_batch rules hc] at h
    exact absurd (List.append_eq_nil_iff.1 h).1 (Batch.scan_progress rules hc).1

namespace Session

/-- The lexemes of the log, and those still to be read. -/
def stream (s : Session) : List Lexeme :=
  s.log.items.toList ++ Lexeme.readFrom s.mode.rules s.cursor

/-! ## Reading a batch -/

theorem mode_fill (s : Session) : s.fill.mode = s.mode := by
  unfold fill
  split <;> rfl

theorem next_fill (s : Session) : s.fill.log.next = s.log.next := by
  unfold fill
  split <;> rfl

theorem marks_fill (s : Session) : s.fill.log.marks = s.log.marks := by
  unfold fill
  split <;> rfl

/-- Reading a batch changes nothing of the list. -/
theorem stream_fill (s : Session) : s.fill.stream = s.stream := by
  unfold fill
  split
  · rw [stream, stream, RewindLog.toList_append, List.append_assoc,
      Lexeme.readFrom_eq_scan s.mode.rules s.cursor]
  · rfl

theorem orderly_fill {s : Session} (h : s.log.Orderly) : s.fill.log.Orderly := by
  unfold fill
  split
  · exact h.append _
  · exact h

/-- If no token is pending after a batch was asked for, none is to come. -/
theorem readFrom_fill {s : Session} (h : s.log.next ≤ s.log.items.size)
    (hu : s.fill.log.unread = 0) : Lexeme.readFrom s.fill.mode.rules s.fill.cursor = [] := by
  unfold fill at hu ⊢
  split
  · next hz =>
    rw [if_pos hz] at hu
    simp only [RewindLog.unread, RewindLog.size_append] at hu hz
    have hnext : (s.log.append (Batch.scan s.mode.rules s.cursor).lexemes).next = s.log.next := rfl
    have hl : (Batch.scan s.mode.rules s.cursor).lexemes = [] :=
      List.eq_nil_of_length_eq_zero (by omega)
    have hc : s.cursor.rest = [] :=
      Decidable.byContradiction fun hc => (Batch.scan_progress s.mode.rules hc).1 hl
    have := Lexeme.readFrom_eq_scan s.mode.rules s.cursor
    rw [Lexeme.readFrom_end _ hc, hl, List.nil_append] at this
    exact this.symm
  · next hz =>
    rw [if_neg hz] at hu
    exact absurd hu hz

/-- After a batch was asked for, the next item of the log is the next of the list. -/
theorem peek?_fill {s : Session} (h : s.log.Orderly) :
    s.fill.log.peek? = s.stream[s.log.next]? := by
  have hf := (orderly_fill h).next_le
  rw [← stream_fill s, ← next_fill s, RewindLog.peek?, stream]
  by_cases hu : s.fill.log.unread = 0
  · rw [readFrom_fill h.next_le hu, List.append_nil, Array.getElem?_toList]
  · have hlt : s.fill.log.next < s.fill.log.items.toList.length := by
      rw [Array.length_toList]
      unfold RewindLog.unread at hu
      omega
    rw [List.getElem?_append_left hlt, Array.getElem?_toList]

theorem peek_fst {s : Session} (h : s.log.Orderly) :
    s.peek.1 = s.stream[s.log.next]?.map Lexeme.token := by
  rw [← peek?_fill h]
  rfl

/-- The token seen is the next one of the session that is left behind, too. -/
theorem peek_fst_fill {s : Session} (h : s.log.Orderly) :
    s.peek.1 = s.fill.stream[s.fill.log.next]?.map Lexeme.token := by
  rw [peek_fst h, stream_fill, next_fill]

/-! ## Handing out a token -/

theorem consume_fst {s : Session} (h : s.log.Orderly) :
    s.consume.1 = s.stream[s.log.next]?.map Lexeme.token := by
  rw [← peek?_fill h]
  simp only [consume, RewindLog.advance]
  split
  · next hp => rw [hp]
  · next hp => rw [hp]

theorem mode_consume (s : Session) : s.consume.2.mode = s.mode :=
  mode_fill s

theorem marks_consume (s : Session) : s.consume.2.log.marks = s.log.marks := by
  rw [← marks_fill s]
  simp only [consume, RewindLog.advance]
  split <;> rfl

theorem stream_consume (s : Session) : s.consume.2.stream = s.stream := by
  rw [← stream_fill s]
  simp only [consume, RewindLog.advance]
  split <;> rfl

theorem items_consume (s : Session) : s.consume.2.log.items = s.fill.log.items := by
  simp only [consume, RewindLog.advance]
  split <;> rfl

theorem next_consume {s : Session} (h : s.log.Orderly) :
    s.consume.2.log.next = if s.log.next < s.stream.length then s.log.next + 1 else s.log.next := by
  have hp := peek?_fill h
  rw [← next_fill s] at hp ⊢
  simp only [consume, RewindLog.advance]
  split
  · next hl =>
    rw [hl] at hp
    have hlt := (List.getElem?_eq_some_iff.1 hp.symm).1
    rw [if_pos hlt]
  · next hl =>
    rw [hl] at hp
    have hle := List.getElem?_eq_none_iff.1 hp.symm
    rw [if_neg (by omega)]

theorem orderly_consume {s : Session} (h : s.log.Orderly) : s.consume.2.log.Orderly :=
  (orderly_fill h).advance

/-! ## Marks -/

theorem rewind_eq_ok {s s' : Session} (h : s.rewind = .ok s') :
    ∃ log, s.log.rewind = .ok log ∧ s' = { s with log := log } := by
  unfold rewind at h
  cases hl : s.log.rewind with
  | error e => rw [hl] at h; cases h
  | ok log =>
    rw [hl] at h
    cases h
    exact ⟨log, rfl, rfl⟩

theorem release_eq_ok {s s' : Session} (h : s.release = .ok s') :
    ∃ log, s.log.release = .ok log ∧ s' = { s with log := log } := by
  unfold release at h
  cases hl : s.log.release with
  | error e => rw [hl] at h; cases h
  | ok log =>
    rw [hl] at h
    cases h
    exact ⟨log, rfl, rfl⟩

/-- The list depends on the items of the log only, and not on its places. -/
theorem stream_eq_of_items {s : Session} {log : RewindLog Lexeme}
    (h : log.items = s.log.items) : stream { s with log := log } = s.stream := by
  rw [stream, stream, h]

theorem stream_rewind {s s' : Session} (h : s.rewind = .ok s') : s'.stream = s.stream := by
  obtain ⟨log, hl, rfl⟩ := rewind_eq_ok h
  exact stream_eq_of_items (RewindLog.items_rewind hl)

theorem stream_release {s s' : Session} (h : s.release = .ok s') : s'.stream = s.stream := by
  obtain ⟨log, hl, rfl⟩ := release_eq_ok h
  exact stream_eq_of_items (RewindLog.items_release hl)

theorem orderly_rewind {s s' : Session} (h : s.log.Orderly) (hr : s.rewind = .ok s') :
    s'.log.Orderly := by
  obtain ⟨log, hl, rfl⟩ := rewind_eq_ok hr
  exact h.rewind hl

theorem orderly_release {s s' : Session} (h : s.log.Orderly) (hr : s.release = .ok s') :
    s'.log.Orderly := by
  obtain ⟨log, hl, rfl⟩ := release_eq_ok hr
  exact h.release hl

/-- What holds of a session, and of the one that a step leads to if it succeeds, holds behind the
step also if it is refused. -/
theorem settle_snd {motive : Session → Prop} {s : Session} {outcome : Except MarkError Session}
    (hrefused : motive s) (hdone : ∀ s', outcome = .ok s' → motive s') :
    motive (s.settle outcome).2 := by
  cases outcome with
  | ok s' => exact hdone s' rfl
  | error => exact hrefused

/-- Going back to a mark, or being refused it, changes the places of the log only. -/
theorem settle_rewind (s : Session) :
    ∃ next marks, (s.settle s.rewind).2 =
      { s with log := { s.log with next := next, marks := marks } } := by
  obtain ⟨cursor, mode, items, next, marks⟩ := s
  cases marks with
  | nil => exact ⟨next, [], rfl⟩
  | cons place marks => exact ⟨place, marks, rfl⟩

/-- So does forgetting a mark. -/
theorem settle_release (s : Session) :
    ∃ next marks, (s.settle s.release).2 =
      { s with log := { s.log with next := next, marks := marks } } := by
  obtain ⟨cursor, mode, items, next, marks⟩ := s
  cases marks with
  | nil => exact ⟨next, [], rfl⟩
  | cons place marks => exact ⟨next, marks, rfl⟩

/-! ## What lies before the place and behind it -/

theorem consumed_eq {s : Session} (h : s.log.Orderly) :
    s.consumed = (s.stream.take s.log.next).map Lexeme.token := by
  have hle : s.log.next ≤ s.log.items.toList.length := by simpa using h.next_le
  rw [consumed, RewindLog.consumed, stream, List.take_append_of_le_length hle]

theorem next_le_stream {s : Session} (h : s.log.Orderly) : s.log.next ≤ s.stream.length := by
  have := h.next_le
  simp only [stream, List.length_append, Array.length_toList]
  omega

theorem toList_drainOnto {s : Session} (h : s.log.Orderly) (read : Array Token) :
    (drainOnto read s).1.toList = read.toList ++ (s.stream.drop s.log.next).map Lexeme.token := by
  fun_induction drainOnto read s with
  | case1 read s t s' hc ih =>
    obtain rfl : s.consume.2 = s' := by rw [hc]
    have ht := consume_fst h
    rw [hc] at ht
    obtain ⟨l, hl, rfl⟩ := Option.map_eq_some_iff.1 ht.symm
    obtain ⟨hlt, hl⟩ := List.getElem?_eq_some_iff.1 hl
    rw [ih (orderly_consume h), stream_consume, next_consume h, if_pos hlt,
      List.drop_eq_getElem_cons hlt, hl]
    simp
  | case2 read s s' hc =>
    have ht := consume_fst h
    rw [hc] at ht
    have hle := List.getElem?_eq_none_iff.1 (Option.map_eq_none_iff.1 ht.symm)
    simp [List.drop_eq_nil_of_le hle]

theorem drain_fst {s : Session} (h : s.log.Orderly) :
    s.drain.1 = (s.stream.drop s.log.next).map Lexeme.token := by
  rw [drain]
  simpa using toList_drainOnto h #[]

/-- What was handed out and what is handed out to the end make up the list. -/
theorem consumed_append_drain {s : Session} (h : s.log.Orderly) :
    s.consumed ++ s.drain.1 = s.stream.map Lexeme.token := by
  rw [consumed_eq h, drain_fst h, ← List.map_append, List.take_append_drop]

/-- A session at the end of the list has nothing pending and nothing to read. -/
theorem at_end {s : Session} (h : s.log.Orderly) (he : s.log.next = s.stream.length) :
    s.hasMore = false ∧ s.consumed = s.stream.map Lexeme.token := by
  have hle := h.next_le
  have hlen := he
  rw [stream, List.length_append, Array.length_toList] at hlen
  have hread : Lexeme.readFrom s.mode.rules s.cursor = [] :=
    List.eq_nil_of_length_eq_zero (by omega)
  have hunread : s.log.unread = 0 := by
    unfold RewindLog.unread
    omega
  refine ⟨?_, ?_⟩
  · simp [hasMore, Cursor.atEnd, Lexeme.rest_eq_nil_of_readFrom hread, hunread]
  · rw [consumed_eq h, he, List.take_length]

end Session

end Scriptlet
