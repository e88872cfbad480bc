/-
Scriptlet.Proofs.Piece.Basic — pieces of text and the tokens that they make.

A piece is what is read of a text as one token, told without saying where it stands:
its kind, its text, its value, and perhaps a fault. `Piece.tokens` puts pieces side by
side from a place on. Where they stand has an influence on the spans of the tokens and
on nothing else.
-/
import Scriptlet.Proofs.Text.Run
import Scriptlet.Rule.Scanned

namespace Scriptlet

/-- A piece of text that is read as one token. -/
structure Piece where
  kind : Kind
  text : List Char
  value : Option Value
  fault : Option Fault

namespace Piece

/-- The piece that characters make to which no rule applies. -/
def unknown (run : List Char) : Piece :=
  ⟨.error, run, some (.fault .unknownToken), none⟩

/-- The text that some pieces make up. -/
def join (ps : List Piece) : List Char :=
  ps.flatMap text

@[simp] theorem join_nil : join [] = [] := rfl

@[simp] theorem join_cons (p : Piece) (ps : List Piece) : join (p :: ps) = p.text ++ join ps :=
  List.flatMap_cons

@[simp] theorem join_append (ps qs : List Piece) : join (ps ++ qs) = join ps ++ join qs :=
  List.flatMap_append

/-- The outcome of a rule that makes this piece of the text at a cursor. -/
def scanned (p : Piece) (c : Cursor) : Scanned :=
  match p.fault with
  | none => .sound c (c.past p.text) p.kind p.value
  | some fault => .faulty c (c.past p.text) p.kind p.value fault

@[simp] theorem stop_scanned (p : Piece) (c : Cursor) : (p.scanned c).stop = c.past p.text := by
  unfold scanned
  split <;> rfl

theorem sound_eq_scanned {c stop : Cursor} {text : List Char} (h : c.Reads text stop)
    (kind : Kind) (value : Option Value) :
    Scanned.sound c stop kind value = scanned ⟨kind, text, value, none⟩ c := by
  rw [h.eq_past]
  rfl

theorem faulty_eq_scanned {c stop : Cursor} {text : List Char} (h : c.Reads text stop)
    (kind : Kind) (value : Option Value) (fault : Fault) :
    Scanned.faulty c stop kind value fault = scanned ⟨kind, text, value, some fault⟩ c := by
  rw [h.eq_past]
  rfl

theorem fault_scanned (p : Piece) (c : Cursor) : (p.scanned c).fault =
    p.fault.map fun fault => .ofFault fault (c.spanTo (p.scanned c).stop) "" := by
  unfold scanned
  split
  · next hfault => simp [hfault, Scanned.sound]
  · next hfault => simp [hfault, Scanned.faulty]

/-- The piece is what the rule has read. -/
theorem reads_scanned {p : Piece} {c : Cursor} {rest : List Char} (h : c.rest = p.text ++ rest) :
    c.Reads p.text (p.scanned c).stop := by
  rw [stop_scanned]
  exact Cursor.reads_past h

theorem token_scanned {p : Piece} {c : Cursor} {rest : List Char} (h : c.rest = p.text ++ rest) :
    (p.scanned c).token =
      ⟨p.kind, c.spanTo (p.scanned c).stop, String.ofList p.text, p.value⟩ := by
  rw [← (reads_scanned h).textTo_eq]
  unfold scanned
  split <;> rfl

/-! ## The tokens of pieces -/

/-- The stretch that the piece covers if it stands at a place. -/
def span (p : Piece) (pos : Position) : Span :=
  .between pos (pos.along p.text)

/-- The tokens of a piece that stands at a place. -/
def tokensAt (p : Piece) (pos : Position) : List Token :=
  p.fault.toList.map (Token.ofFault · (p.span pos) "") ++
    [⟨p.kind, p.span pos, String.ofList p.text, p.value⟩]

/-- The tokens of pieces that stand side by side from a place on. -/
def tokens : Position → List Piece → List Token
  | _, [] => []
  | pos, p :: ps => p.tokensAt pos ++ tokens (pos.along p.text) ps

theorem tokens_scanned {p : Piece} {c : Cursor} {rest : List Char} (h : c.rest = p.text ++ rest) :
    (p.scanned c).tokens = p.tokensAt c.pos := by
  have hspan : c.spanTo (p.scanned c).stop = p.span c.pos := by
    rw [stop_scanned]
    rfl
  rw [Scanned.tokens, fault_scanned, token_scanned h, hspan, Option.toList_map, tokensAt]

theorem tokens_append (pos : Position) (ps qs : List Piece) :
    tokens pos (ps ++ qs) = tokens pos ps ++ tokens (pos.along (join ps)) qs := by
  induction ps generalizing pos with
  | nil => rfl
  | cons p ps ih =>
    rw [List.cons_append, tokens, tokens, ih, join_cons, Position.along_append, List.append_assoc]

/-- The texts of the tokens are the texts of the pieces; a fault has none. -/
theorem flatMap_text_tokens (pos : Position) (ps : List Piece) :
    (tokens pos ps).flatMap (·.text.toList) = join ps := by
  induction ps generalizing pos with
  | nil => rfl
  | cons p ps ih =>
    rw [tokens, List.flatMap_append, ih, join_cons]
    cases h : p.fault <;> simp [tokensAt, h, Token.ofFault]

end Piece

end Scriptlet
