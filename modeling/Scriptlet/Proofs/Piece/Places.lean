/-
Scriptlet.Proofs.Piece.Places — a token of a source is known by its kind and its place.

The tokens of different pieces begin at different offsets, since no piece is empty. A piece that
has a fault has two tokens of one span, but only the fault is of kind `error`: what the rules cut
off is of another kind, and what was skipped is reported without a fault of its own. So
`Token.samePlace` tells the tokens of a source apart (`Piece.Lexed.pairwise_tokens`), and those of
any sessions that stay in one mode, which come from the same source
(`Session.eq_of_samePlace`).
-/
import Mathlib.Data.List.Pairwise
import Scriptlet.Proofs.Piece.Faults
import Scriptlet.Proofs.Session.Index

namespace Scriptlet

namespace Token

theorem samePlace_iff {a b : Token} : a.samePlace b = true ↔ a.kind = b.kind ∧ a.span = b.span := by
  rw [samePlace, Bool.and_eq_true, beq_iff_eq, beq_iff_eq]

theorem samePlace_comm (a b : Token) : a.samePlace b = b.samePlace a := by
  rw [Bool.eq_iff_iff, samePlace_iff, samePlace_iff, eq_comm, eq_comm (a := a.span)]

theorem samePlace_eq_false_of_kind {a b : Token} (h : a.kind ≠ b.kind) : a.samePlace b = false := by
  rw [← Bool.not_eq_true, samePlace_iff]
  exact fun hsame => h hsame.1

theorem samePlace_eq_false_of_startOffset {a b : Token}
    (h : a.span.startOffset ≠ b.span.startOffset) : a.samePlace b = false := by
  rw [← Bool.not_eq_true, samePlace_iff]
  exact fun hsame => h (congrArg Span.startOffset hsame.2)

end Token

namespace Piece

open Token

variable {rules : List Rule} {p : Piece} {ps : List Piece} {pos : Position} {t : Token}

theorem startOffset_of_mem_tokensAt (h : t ∈ p.tokensAt pos) :
    t.span.startOffset = pos.offset := by
  rcases List.mem_append.1 h with h | h
  · obtain ⟨fault, -, rfl⟩ := List.mem_map.1 h
    rfl
  · rw [List.mem_singleton.1 h]
    rfl

theorem offset_le_of_mem_tokens (h : t ∈ tokens pos ps) : pos.offset ≤ t.span.startOffset := by
  induction ps generalizing pos with
  | nil => cases h
  | cons p ps ih =>
    rcases List.mem_append.1 h with h | h
    · exact Nat.le_of_eq (startOffset_of_mem_tokensAt h).symm
    · have hbehind := ih h
      rw [Position.offset_along] at hbehind
      omega

/-- A piece that has a fault is not a fault itself. -/
theorem Lexed.kind_ne_error (h : Lexed rules (p :: ps)) (hfault : p.fault ≠ none) :
    p.kind ≠ .error := by
  rcases h.cuts_or_skips with ⟨r, hcuts⟩ | ⟨run, rfl, -⟩
  · exact hcuts.real
  · exact absurd rfl hfault

theorem Lexed.pairwise_tokensAt (h : Lexed rules (p :: ps)) (pos : Position) :
    (p.tokensAt pos).Pairwise fun a b => a.samePlace b = false := by
  unfold tokensAt
  cases hfault : p.fault with
  | none => exact List.pairwise_singleton ..
  | some fault =>
    have hreal : p.kind ≠ .error := h.kind_ne_error (by simp [hfault])
    exact List.pairwise_pair.2 (samePlace_eq_false_of_kind hreal.symm)

/-- No two tokens of the pieces of a text are of one kind and in one place. -/
theorem Lexed.pairwise_tokens (h : Lexed rules ps) (pos : Position) :
    (tokens pos ps).Pairwise fun a b => a.samePlace b = false := by
  induction ps generalizing pos with
  | nil => exact .nil
  | cons p ps ih =>
    rw [tokens, List.pairwise_append]
    refine ⟨h.pairwise_tokensAt pos, ih h.tail _, fun a ha b hb => ?_⟩
    apply samePlace_eq_false_of_startOffset
    have hlength := List.length_pos_iff.2 h.text_ne_nil
    have hbehind := offset_le_of_mem_tokens hb
    rw [Position.offset_along] at hbehind
    rw [startOffset_of_mem_tokensAt ha]
    omega

end Piece

/-! ## Sources and sessions -/

theorem Token.pairwise_tokenize (mode : Mode) (source : String) :
    (tokenize mode source).Pairwise fun a b => a.samePlace b = false := by
  obtain ⟨ps, hps, rfl⟩ := Piece.exists_join_eq mode source
  rw [Piece.tokenize_join hps]
  exact hps.pairwise_tokens .start

namespace Session

/-- A session that stays in its mode has no tokens but those of the source. -/
theorem Offers.mem_tokenize {mode : Mode} {source : String} {steps : List Step} {t : Token}
    (h : (after mode source (steps.map Step.action)).Offers t) : t ∈ tokenize mode source := by
  have hfollows := (follows_start mode source).run steps
  obtain ⟨l, hl, rfl⟩ := h.mem_stream hfollows.orderly
  rw [← hfollows.tokens_eq]
  exact List.mem_map_of_mem hl

/-- No two tokens of a source are of one kind and in one place, so tokens that are come from one
place in it, and their texts and values are equal too, whichever sessions they come up in. -/
theorem eq_of_samePlace (mode : Mode) (source : String) :
    (tokenize mode source).Pairwise (fun a b => a.samePlace b = false) ∧
      ∀ (steps steps' : List Step) (a b : Token),
        (after mode source (steps.map Step.action)).Offers a →
        (after mode source (steps'.map Step.action)).Offers b →
        a.samePlace b = true → a = b := by
  have hpairwise := Token.pairwise_tokenize mode source
  refine ⟨hpairwise, fun steps steps' a b ha hb hsame => ?_⟩
  by_contra hne
  have hsymm : Std.Symm fun a b : Token => a.samePlace b = false :=
    ⟨fun a b h => (b.samePlace_comm a).trans h⟩
  have hother := hpairwise.forall ha.mem_tokenize hb.mem_tokenize hne
  rw [hsame] at hother
  cases hother

/-- A skipped character and an open string: what one session looks at behind the report of the
character is what another one hands out for the second time. -/
theorem eq_of_samePlace_behind_skipped :
    let s := after .breakout "#'a" ([.consume].map Step.action)
    let s' := after .breakout "#'a" ([.mark, .consume, .consume, .rewind, .consume].map Step.action)
    ∃ a b, s.peek.1 = some a ∧ s'.consume.1 = some b ∧ a.samePlace b = true ∧ a = b := by
  intro s s'
  have ha : s.peek.1 = some (.ofFault .missingEndQuote ⟨1, 3, 1, 2, 1, 3⟩ "") := by decide +kernel
  have hb : s'.consume.1 = some (.ofFault .missingEndQuote ⟨1, 3, 1, 2, 1, 3⟩ "") := by
    decide +kernel
  have hsame : (Token.ofFault .missingEndQuote ⟨1, 3, 1, 2, 1, 3⟩ "").samePlace
      (.ofFault .missingEndQuote ⟨1, 3, 1, 2, 1, 3⟩ "") = true := by decide
  refine ⟨_, _, ha, hb, hsame, ?_⟩
  exact (eq_of_samePlace .breakout "#'a").2 [.consume]
    [.mark, .consume, .consume, .rewind, .consume] _ _
    (.inr ⟨.peek, congrArg Reply.token ha⟩) (.inr ⟨.consume, congrArg Reply.token hb⟩) hsame

end Session

end Scriptlet
