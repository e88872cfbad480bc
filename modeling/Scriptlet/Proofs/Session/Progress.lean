/-
Scriptlet.Proofs.Session.Progress — a session that says that more is to come does have
more, and comes to its end.

`Session.Progresses source s` says it of one session: more is to come exactly if handing
out has a token for an answer, and exactly if the texts handed out are not the whole source
yet; and a batch that is read has a token and takes the cursor on.

Only the cursor and the number of pending tokens are asked whether more is to come. So no
session may be left with nothing but a token that has no text, such as the fault of an open
string. It is not, for wherever a lexeme begins, the source goes on
(`Lexeme.Origin.rest_ne_nil`), also where a change of mode has dropped what the fault is
about.
-/
import Scriptlet.Proofs.Session.Backtracking
import Scriptlet.Proofs.Session.Peeking

namespace Scriptlet

/-! ## Where the source goes on -/

namespace Cursor

theorem rest_standing {source : String} {offset : Nat} (h : offset ≤ source.length) :
    (standing source offset).rest = source.toList.drop offset := by
  have hlength : (source.toList.take offset).length = offset := by
    rw [List.length_take, String.length_toList]
    exact Nat.min_eq_left h
  show source.toList.drop (source.toList.take offset).length = _
  rw [hlength]

/-- What lies before a cursor and what is left are the whole source. -/
theorem Before.offset_add_length {source : String} {c : Cursor} (h : (start source).Before c) :
    c.pos.offset + c.rest.length = source.length := by
  obtain ⟨text, h⟩ := h
  have hoffset : c.pos.offset = text.length := h.offset_eq.trans (Nat.zero_add _)
  have hlength : source.toList.length = text.length + c.rest.length := h.length_eq
  rw [String.length_toList] at hlength
  omega

/-- Reading on moves the place by what is read. -/
theorem Before.offset_lt {c c' : Cursor} (h : c.Before c')
    (hlt : c'.rest.length < c.rest.length) : c.pos.offset < c'.pos.offset := by
  obtain ⟨text, h⟩ := h
  have hoffset := h.offset_eq
  have hlength := h.length_eq
  omega

end Cursor

namespace Lexeme

theorem rest_ne_nil_of_scanFirst? {rules : List Rule} {c : Cursor} {s : Scanned}
    (h : Rule.scanFirst? rules c = some s) : c.rest ≠ [] :=
  List.ne_nil_of_length_pos (Nat.zero_lt_of_lt (Rule.scanFirst?_shortens h))

/-- Where a lexeme begins, the source goes on, even if the lexeme has no text. -/
theorem Origin.rest_ne_nil {l : Lexeme} (h : Origin l) : l.start.rest ≠ [] := by
  cases h with
  | @skipped c place before moves =>
    obtain ⟨text, hreads⟩ := before
    have hoffset := hreads.offset_eq
    have hlength := hreads.length_eq
    have hpos : 0 < c.rest.length := by omega
    exact List.ne_nil_of_length_pos hpos
  | token applies => exact rest_ne_nil_of_scanFirst? applies
  | fault applies => exact rest_ne_nil_of_scanFirst? applies

/-- A chain to the end of the source is empty only at the end. -/
theorem Chain.eq_nil_iff {c stop : Cursor} {ls : List Lexeme} (h : Chain c ls stop)
    (hstop : stop.rest = []) (hleft : ∀ l ∈ ls, l.start.rest ≠ []) : ls = [] ↔ c.rest = [] := by
  cases h with
  | nil => simp [hstop]
  | @cons l => simp [hleft l]

/-- At most two tokens are read for each character, and one at least if there is one. -/
theorem length_readFrom (rules : List Rule) (c : Cursor) :
    (readFrom rules c).length ≤ 2 * c.rest.length ∧
      (0 < c.rest.length → 0 < (readFrom rules c).length) := by
  induction c using readFrom_induction rules with
  | done c hc => simp [readFrom_end rules hc, hc]
  | more c hc ih =>
    have hweight := Batch.weight_scan rules c
    have hbatch := List.length_pos_iff.2 (Batch.scan_progress rules hc).1
    rw [readFrom_batch rules hc, List.length_append]
    omega

end Lexeme

namespace Session

variable {source : String} {s : Session}

/-! ## One session -/

/-- What is to come is a chain from behind the texts handed out to the end. -/
theorem Sound.chain_drop (h : Sound source s) :
    ∃ stop, stop.rest = [] ∧
      Lexeme.Chain (.standing source s.consumedLength) (s.stream.drop s.log.next) stop := by
  obtain ⟨stop, hstop, hchain⟩ := h.chain_stream
  rw [← List.take_append_drop s.log.next s.stream, ← log_consumed_eq h.orderly] at hchain
  obtain ⟨c, hread, hleft⟩ := hchain.of_append
  have hc : c = .standing source s.consumedLength := by
    rw [Cursor.eq_standing_of_reads hread.reads, length_flatMap_consumed]
  exact ⟨stop, hstop, hc ▸ hleft⟩

/-- The place is the end of the stream exactly if the texts handed out are the source. -/
theorem Sound.next_lt_iff (h : Sound source s) (horigin : ∀ l ∈ s.stream, l.Origin) :
    s.log.next < s.stream.length ↔ s.consumedLength < source.length := by
  obtain ⟨stop, hstop, hchain⟩ := h.chain_drop
  have hnil := hchain.eq_nil_iff hstop fun l hl => (horigin l (List.mem_of_mem_drop hl)).rest_ne_nil
  rw [Cursor.rest_standing h.consumedLength_le, List.drop_eq_nil_iff, List.drop_eq_nil_iff,
    String.length_toList] at hnil
  omega

/-- A session that says truly whether more is to come, and comes nearer to the end of the
source with every batch. -/
structure Progresses (source : String) (s : Session) : Prop where
  hasMore_iff_token : s.hasMore = true ↔ ∃ t, s.consume.1 = some t
  hasMore_iff_left : s.hasMore = true ↔ s.consumedLength < source.length
  scans : s.log.unread = 0 → s.cursor.pos.offset < source.length →
    (∃ batch, batch ≠ [] ∧ s.fill.log.items.toList = s.log.items.toList ++ batch) ∧
      s.cursor.pos.offset < s.fill.cursor.pos.offset
  rests : 0 < s.log.unread ∨ source.length ≤ s.cursor.pos.offset → s.fill = s
  within : s.fill.cursor.pos.offset ≤ source.length

theorem Sound.before_cursor (h : Sound source s) : (Cursor.start source).Before s.cursor :=
  ⟨_, h.chain.reads⟩

/-- A batch is read only before the end and while nothing is pending. -/
theorem Sound.scans (h : Sound source s) (hu : s.log.unread = 0)
    (hc : s.cursor.pos.offset < source.length) :
    (∃ batch, batch ≠ [] ∧ s.fill.log.items.toList = s.log.items.toList ++ batch) ∧
      s.cursor.pos.offset < s.fill.cursor.pos.offset := by
  have hrest : s.cursor.rest ≠ [] := by
    have hsum := h.before_cursor.offset_add_length
    rw [← List.length_pos_iff]
    omega
  obtain ⟨hbatch, hshort⟩ := Batch.scan_progress s.mode.rules hrest
  rw [Session.fill, if_pos hu]
  exact ⟨⟨_, hbatch, RewindLog.toList_append ..⟩, (Batch.before_stop ..).offset_lt hshort⟩

theorem Sound.fill_eq (h : Sound source s)
    (hidle : 0 < s.log.unread ∨ source.length ≤ s.cursor.pos.offset) : s.fill = s := by
  rcases hidle with hu | hc
  · exact fill_of_unread hu
  · have hsum := h.before_cursor.offset_add_length
    exact fill_of_end (List.eq_nil_of_length_eq_zero (by omega))

theorem Sound.progresses (h : Sound source s) (horigin : ∀ l ∈ s.stream, l.Origin) :
    Progresses source s where
  hasMore_iff_token := by
    rw [hasMore_eq h.orderly, decide_eq_true_iff, consume_fst h.orderly, ← Option.isSome_iff_exists,
      Option.isSome_map, isSome_getElem?]
  hasMore_iff_left := by
    rw [hasMore_eq h.orderly, decide_eq_true_iff]
    exact h.next_lt_iff horigin
  scans := h.scans
  rests := h.fill_eq
  within := by
    have hsum := h.fill.before_cursor.offset_add_length
    omega

/-! ## All sessions -/

/-- Whatever was done to a session, it makes progress. If its mode was never set, its
tokens are at most two for each character of the source, and one at least if there is a
character. -/
theorem progresses_after (mode : Mode) (source : String) (actions : List Action) :
    Progresses source (after mode source actions) ∧
      ∀ steps : List Step,
        (after mode source (steps.map Step.action)).tokens.length ≤ 2 * source.length ∧
          (0 < source.length →
            0 < (after mode source (steps.map Step.action)).tokens.length) := by
  constructor
  · exact (sound_after mode source actions).progresses
      (forall_mem_stream (fun _ _ _ => Lexeme.origin_of_mem_scan) mode source actions)
  · intro steps
    have hs := sound_start mode source
    have htokens : (after mode source (steps.map Step.action)).tokens
        = (Lexeme.readFrom mode.rules (.start source)).map Lexeme.token :=
      (hs.tokens_run steps).trans (tokens_eq hs.orderly)
    have hlength := Lexeme.length_readFrom mode.rules (.start source)
    have hsource : (Cursor.start source).rest.length = source.length := String.length_toList
    rw [htokens, List.length_map, ← hsource]
    exact hlength

end Session

end Scriptlet
