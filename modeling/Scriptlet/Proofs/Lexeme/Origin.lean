/-
Scriptlet.Proofs.Lexeme.Origin — how the lexemes of a session came about.

`Lexeme.Origin l` says that the lexeme is the report of skipped characters, or that a
rule of some mode applies where it begins and it is the token of this rule or the
fault of that token. A fault keeps this origin when a change of mode has dropped the
token behind it, so what is said of the token that it is about can still be said.

`Session.forall_mem_stream` takes a fact about the lexemes of every batch to all
lexemes of every session: a step writes a batch to the log or takes lexemes out, and
nothing else (`Session.mem_items_perform`).
-/
import Scriptlet.Proofs.Session.Run

namespace Scriptlet

/-! ## Lexemes of a batch -/

namespace Lexeme

/-- What a lexeme may come from. -/
inductive Origin : Lexeme → Prop where
  | skipped {c place : Cursor} (before : c.Before place)
      (moves : c.pos.offset < place.pos.offset) :
      Origin ⟨.ofFault .unknownToken (c.spanTo place) (c.textTo place), c⟩
  | token {mode : Mode} {c : Cursor} {s : Scanned}
      (applies : Rule.scanFirst? mode.rules c = some s) : Origin ⟨s.token, c⟩
  | fault {mode : Mode} {c : Cursor} {s : Scanned} {t : Token}
      (applies : Rule.scanFirst? mode.rules c = some s) (reported : s.fault = some t) :
      Origin ⟨t, c⟩

theorem origin_of_mem_skipped {c place : Cursor} {l : Lexeme} (h : c.Before place)
    (hl : l ∈ Batch.skipped c place) : Origin l := by
  unfold Batch.skipped at hl
  split at hl
  · next hlt =>
    rw [List.mem_singleton.1 hl]
    exact .skipped h hlt
  · cases hl

theorem origin_of_mem_scan {mode : Mode} {c : Cursor} {l : Lexeme}
    (hl : l ∈ (Batch.scan mode.rules c).lexemes) : Origin l := by
  have ho := Batch.outcome_scan mode.rules c
  generalize Batch.scan mode.rules c = batch at hl ho
  cases ho with
  | exhausted before => exact origin_of_mem_skipped before hl
  | found before applies =>
    rcases List.mem_append.1 hl with hl | hl
    · exact origin_of_mem_skipped before hl
    · obtain ⟨t, ht, rfl⟩ := List.mem_map.1 hl
      rcases List.mem_append.1 ht with ht | ht
      · exact .fault applies (Option.mem_toList.1 ht)
      · rw [List.mem_singleton.1 ht]
        exact .token applies

/-- A lexeme of a chain begins behind the beginning of the chain. -/
theorem Chain.before_of_mem {c stop : Cursor} {ls : List Lexeme} {l : Lexeme}
    (h : Chain c ls stop) (hl : l ∈ ls) : c.Before l.start := by
  obtain ⟨front, back, rfl⟩ := List.append_of_mem hl
  obtain ⟨c', hfront, hback⟩ := h.of_append
  cases hback with
  | cons => exact ⟨_, hfront.reads⟩

end Lexeme

/-! ## Lexemes of a session -/

namespace Session

variable {s : Session}

theorem mem_items_fill {l : Lexeme} (hl : l ∈ s.fill.log.items.toList) :
    l ∈ s.log.items.toList ∨ l ∈ (Batch.scan s.mode.rules s.cursor).lexemes := by
  unfold fill at hl
  split at hl
  · rw [RewindLog.toList_append] at hl
    exact List.mem_append.1 hl
  · exact .inl hl

/-- What is in the log after a step was there before or is of the next batch. -/
theorem mem_items_perform {action : Action} {l : Lexeme}
    (hl : l ∈ (s.perform action).2.log.items.toList) :
    l ∈ s.log.items.toList ∨ l ∈ (Batch.scan s.mode.rules s.cursor).lexemes := by
  cases action with
  | peek => exact mem_items_fill hl
  | consume =>
    apply mem_items_fill
    rw [← items_consume]
    exact hl
  | setMode mode =>
    have hmem : l ∈ s.log.consumed := by
      rw [← RewindLog.toList_dropUnread]
      exact hl
    exact .inl (List.mem_of_mem_take hmem)
  | mark => exact .inl hl
  | rewind =>
    obtain ⟨next, marks, h⟩ := settle_rewind s
    have hmem : l ∈ (s.settle s.rewind).2.log.items.toList := hl
    rw [h] at hmem
    exact .inl hmem
  | release =>
    obtain ⟨next, marks, h⟩ := settle_release s
    have hmem : l ∈ (s.settle s.release).2.log.items.toList := hl
    rw [h] at hmem
    exact .inl hmem

section EveryBatch

variable {P : Lexeme → Prop}
  (each : ∀ (mode : Mode) (c : Cursor), ∀ l ∈ (Batch.scan mode.rules c).lexemes, P l)

include each

theorem forall_mem_items_run (h : ∀ l ∈ s.log.items.toList, P l) (actions : List Action) :
    ∀ l ∈ (s.run actions).log.items.toList, P l := by
  induction actions generalizing s with
  | nil => exact h
  | cons action actions ih =>
    apply ih
    intro l hl
    rcases mem_items_perform hl with hl | hl
    · exact h l hl
    · exact each s.mode s.cursor l hl

/-- What holds of the lexemes of every batch holds of all lexemes of every session. -/
theorem forall_mem_stream (mode : Mode) (source : String) (actions : List Action) :
    ∀ l ∈ (after mode source actions).stream, P l := by
  intro l hl
  rcases List.mem_append.1 hl with hl | hl
  · exact forall_mem_items_run each (by simp [start, RewindLog.empty]) actions l hl
  · exact Lexeme.forall_mem_readFrom (each _) _ l hl

end EveryBatch

end Session

end Scriptlet
