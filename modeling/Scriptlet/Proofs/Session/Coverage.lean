/-
Scriptlet.Proofs.Session.Coverage — no character of a source is lost, read twice
or moved, whatever is done to the session that reads it.

`Session.covers_source` takes the tokens handed out by then, together with those
that are handed out to the end. Their texts are the source, and the spans of those
that have a text tile it.
-/
import Scriptlet.Proofs.Session.Run

namespace Scriptlet

theorem Lexeme.join_text (ls : List Lexeme) :
    String.join ((ls.map Lexeme.token).map Token.text)
      = String.ofList (ls.flatMap (·.token.text.toList)) := by
  rw [← String.toList_inj, String.toList_join, String.toList_ofList, List.map_map,
    List.flatMap_map]
  rfl

namespace Session

variable {source : String} {s : Session}

/-- The log and what is still to be read are a chain through the whole source. -/
theorem Sound.chain_stream (h : Sound source s) :
    ∃ stop, stop.rest = [] ∧ Lexeme.Chain (.start source) s.stream stop := by
  obtain ⟨stop, hstop, hread⟩ := Lexeme.chain_readFrom s.mode.rules s.cursor
  exact ⟨stop, hstop, h.chain.append hread⟩

/-- The tokens handed out, and those that are handed out to the end. -/
def tokens (s : Session) : List Token :=
  s.consumed ++ s.drain.1

/-- After any steps, the tokens handed out and the tokens to come cover the source. -/
theorem covers_source (mode : Mode) (source : String) (actions : List Action) :
    String.join ((after mode source actions).tokens.map Token.text) = source ∧
      Span.Tiles 0 source.length
        (((after mode source actions).tokens.filter (·.text ≠ "")).map Token.span) := by
  have hs := sound_after mode source actions
  obtain ⟨stop, hstop, hchain⟩ := hs.chain_stream
  have htokens : (after mode source actions).tokens
      = (after mode source actions).stream.map Lexeme.token :=
    consumed_append_drain hs.orderly
  have htext : source.toList
      = (after mode source actions).stream.flatMap (·.token.text.toList) := by
    have hrest := hchain.reads.rest_eq
    rw [hstop, List.append_nil] at hrest
    exact hrest
  have hoffset : stop.pos.offset = source.length := by
    have hoff := hchain.reads.offset_eq
    rw [← htext, String.length_toList] at hoff
    rw [hoff]
    exact Nat.zero_add _
  rw [htokens]
  constructor
  · rw [Lexeme.join_text, ← htext, String.ofList_toList]
  · have htiles := hchain.tiles
    rw [hoffset] at htiles
    exact htiles

end Session

end Scriptlet
