/-
Scriptlet.Proofs.Lexeme.Chain — lexemes in a row. `Lexeme.Chain c ls stop` says
that the first lexeme begins at `c`, that each of the others begins where the
text of the one before it ends, and that the last one ends at `stop`.

A fault that leaves its text to the token behind it has an empty text, so both
begin at one cursor and the chain goes through it. For this reason a span is
asked about only where there is a text.

* `Lexeme.chain_scan`, `Lexeme.chain_readFrom` — a batch, and everything that is
  read to the end, is a chain;
* `Lexeme.Chain.reads` — the texts of a chain, put together, are the text read;
* `Lexeme.Chain.tiles` — the spans of a chain lie side by side.
-/
import Scriptlet.Proofs.Rule.Extent
import Scriptlet.Tokenization

namespace Scriptlet

/-- The spans lie side by side, the first one begins at `start` and the last one
ends at `stop`. None of them is empty. -/
def Span.Tiles (start stop : Nat) : List Span → Prop
  | [] => start = stop
  | s :: others =>
    s.startOffset = start ∧ s.startOffset < s.endOffset ∧ Span.Tiles s.endOffset stop others

namespace Lexeme

/-- The lexeme is read from where it begins up to this cursor. -/
structure Until (l : Lexeme) (stop : Cursor) : Prop where
  reads : l.start.Reads l.token.text.toList stop
  span_eq : l.token.text ≠ "" → l.token.span = l.start.spanTo stop

/-- The lexemes follow one another from one cursor to another. -/
inductive Chain : Cursor → List Lexeme → Cursor → Prop where
  | nil (c : Cursor) : Chain c [] c
  | cons {l : Lexeme} {ls : List Lexeme} {c stop : Cursor} (first : l.Until c)
      (others : Chain c ls stop) : Chain l.start (l :: ls) stop

namespace Chain

variable {c c' stop : Cursor} {ls ls' : List Lexeme}

theorem single {l : Lexeme} (h : l.Until stop) : Chain l.start [l] stop :=
  .cons h (.nil stop)

theorem append (h : Chain c ls c') (h' : Chain c' ls' stop) : Chain c (ls ++ ls') stop := by
  induction h with
  | nil => exact h'
  | cons first _ ih => exact .cons first (ih h')

theorem of_append (h : Chain c (ls ++ ls') stop) : ∃ c', Chain c ls c' ∧ Chain c' ls' stop := by
  induction ls generalizing c with
  | nil => exact ⟨c, .nil c, h⟩
  | cons l ls ih =>
    rw [List.cons_append] at h
    cases h with
    | cons first others =>
      obtain ⟨c', h, h'⟩ := ih others
      exact ⟨c', .cons first h, h'⟩

/-- The texts of a chain, put together, are the text read. -/
theorem reads (h : Chain c ls stop) : c.Reads (ls.flatMap (·.token.text.toList)) stop := by
  induction h with
  | nil c => exact .refl c
  | cons first _ ih =>
    rw [List.flatMap_cons]
    exact first.reads.trans ih

/-- The spans of a chain lie side by side. -/
theorem tiles (h : Chain c ls stop) :
    Span.Tiles c.pos.offset stop.pos.offset
      (((ls.map Lexeme.token).filter (·.text ≠ "")).map Token.span) := by
  induction h with
  | nil => rfl
  | @cons l ls c stop first _ ih =>
    have hoff := first.reads.offset_eq
    by_cases htext : l.token.text = ""
    · rw [htext] at hoff
      rw [List.map_cons, List.filter_cons_of_neg (by simpa using htext), ← show
        c.pos.offset = l.start.pos.offset from hoff]
      exact ih
    · have hpos : 0 < l.token.text.toList.length := by
        rw [List.length_pos_iff, ne_eq, String.toList_eq_nil_iff]
        exact htext
      rw [List.map_cons, List.filter_cons_of_pos (by simpa using htext), List.map_cons,
        first.span_eq htext]
      refine ⟨rfl, ?_, ih⟩
      show l.start.pos.offset < c.pos.offset
      omega

end Chain

/-! ## Batches are chains -/

theorem chain_skipped {c place : Cursor} (h : c.Before place) :
    Chain c (Batch.skipped c place) place := by
  unfold Batch.skipped
  split
  · have hreport : Lexeme.Until
        ⟨.ofFault .unknownToken (c.spanTo place) (c.textTo place), c⟩ place :=
      ⟨h.reads_textTo, fun _ => rfl⟩
    exact .single hreport
  · next hle =>
    obtain ⟨text, h⟩ := h
    have hoff := h.offset_eq
    have hnil : text = [] := List.eq_nil_of_length_eq_zero (by omega)
    subst hnil
    rw [h.eq_of_nil]
    exact .nil c

theorem chain_tokens {c : Cursor} {s : Scanned} (h : s.Made c) :
    Chain c (s.tokens.map (⟨·, c⟩)) s.stop := by
  have htoken : Lexeme.Until ⟨s.token, c⟩ s.stop := ⟨h.reads, fun _ => h.span_eq⟩
  unfold Scanned.tokens
  cases hf : s.fault with
  | none => exact .single htoken
  | some t =>
    obtain ⟨fault, -, rfl⟩ := h.fault_eq hf
    have hfault : Lexeme.Until ⟨.ofFault fault s.token.span "", c⟩ c :=
      ⟨.refl c, fun hne => absurd rfl hne⟩
    exact .cons hfault (.single htoken)

theorem chain_scan (rules : List Rule) (c : Cursor) :
    Chain c (Batch.scan rules c).lexemes (Batch.scan rules c).stop := by
  have ho := Batch.outcome_scan rules c
  generalize Batch.scan rules c = batch at ho
  cases ho with
  | exhausted before => exact chain_skipped before
  | found before applies =>
    exact (chain_skipped before).append (chain_tokens (Rule.made_of_scanFirst? applies))

/-! ## Everything to the end -/

/-- Reading to the end goes from batch to batch, so a proof about it may too. -/
theorem readFrom_induction (rules : List Rule) {motive : Cursor → Prop}
    (done : ∀ c, c.rest = [] → motive c)
    (more : ∀ c, c.rest ≠ [] → motive (Batch.scan rules c).stop → motive c) (c : Cursor) :
    motive c := by
  induction hn : c.rest.length using Nat.strongRecOn generalizing c with
  | ind n ih =>
    by_cases hc : c.rest = []
    · exact done c hc
    · have hlt := (Batch.scan_progress rules hc).2
      exact more c hc (ih _ (hn ▸ hlt) _ rfl)

/-- Reading batch after batch ends where nothing is left. -/
theorem chain_readFrom (rules : List Rule) (c : Cursor) :
    ∃ stop, stop.rest = [] ∧ Chain c (readFrom rules c) stop := by
  induction c using readFrom_induction rules with
  | done c hc =>
    rw [readFrom_end rules hc]
    exact ⟨c, hc, .nil c⟩
  | more c hc ih =>
    obtain ⟨stop, hstop, h⟩ := ih
    rw [readFrom_batch rules hc]
    exact ⟨stop, hstop, (chain_scan rules c).append h⟩

/-- What holds of all lexemes of all batches holds of all lexemes to the end. -/
theorem forall_mem_readFrom {rules : List Rule} {P : Lexeme → Prop}
    (each : ∀ c, ∀ l ∈ (Batch.scan rules c).lexemes, P l) (c : Cursor) :
    ∀ l ∈ readFrom rules c, P l := by
  induction c using readFrom_induction rules with
  | done c hc => simp [readFrom_end rules hc]
  | more c hc ih =>
    rw [readFrom_batch rules hc]
    intro l hl
    rcases List.mem_append.1 hl with hl | hl
    · exact each c l hl
    · exact ih l hl

end Lexeme

end Scriptlet
