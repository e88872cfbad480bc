/-
Scriptlet.Proofs.Session.Spans — every token of every session says exactly where it
stands.

`Token.Exact source t` is what a token says: its span is exact and its text is the
slice of the source that the span covers. A fault that is attached to a token has no
text of its own and repeats the span of that token, even if the token itself was
dropped by a change of mode.

`Session.exact_of_offers` says so of all tokens of a session, after any steps. Which
token of which mode it is does not matter: where a lexeme begins is known by what was
read before it, and what a rule makes of the text there is known by its origin.
-/
import Scriptlet.Proofs.Lexeme.Origin
import Scriptlet.Proofs.Session.Coverage
import Scriptlet.Proofs.Source.Lines

namespace Scriptlet

namespace Token

/-- Whether the token reports a fault of the token that is made together with it and
comes behind it. -/
def isAttached (t : Token) : Bool :=
  t.fault? == some .missingEndQuote || t.fault? == some .missingEndComment

/-- The token says exactly where it stands. The outcome `s` below is what the rules of
some mode make of the text where the token begins: the token with the text, and the
fault that is reported of it. -/
structure Exact (source : String) (t : Token) : Prop where
  span : t.span.Exact source
  text_eq : t.isAttached = false → t.text = slice source t.span.startOffset t.span.endOffset
  attached : t.isAttached = true → t.text = "" ∧
    ∃ (mode : Mode) (s : Scanned),
      Rule.scanFirst? mode.rules (.standing source t.span.startOffset) = some s ∧
        s.fault = some t ∧ s.token.span = t.span

theorem isAttached_ofFault (fault : Fault) (span : Span) (text : String) :
    (ofFault fault span text).isAttached = (fault != .unknownToken) := by
  cases fault <;> rfl

/-- A token that carries a value of its kind is attached only if it is a fault. -/
theorem isAttached_eq_false {t : Token} (h : t.kind.carries t.value = true)
    (hk : t.kind ≠ .error) : t.isAttached = false := by
  obtain ⟨kind, span, text, value⟩ := t
  cases kind <;> rcases value with _ | (_ | _ | _ | _ | _ | _) <;>
    first | rfl | exact absurd rfl hk | cases h

end Token

/-! ## Tokens by their origin -/

namespace Lexeme

variable {source : String}

theorem exact_skipped {c place : Cursor} (hc : (Cursor.start source).Before c)
    (h : c.Before place) (hlt : c.pos.offset < place.pos.offset) :
    (Token.ofFault .unknownToken (c.spanTo place) (c.textTo place)).Exact source := by
  obtain ⟨before, hbefore⟩ := hc
  obtain ⟨text, hread⟩ := h
  have hne : text ≠ [] := by
    rintro rfl
    have := hread.offset_eq
    simp at this
    omega
  refine ⟨hbefore.exact hread hne, ?_, fun h => by cases h⟩
  intro _
  show c.textTo place = slice source c.pos.offset place.pos.offset
  rw [hbefore.slice_eq hread, hread.textTo_eq]

theorem exact_token {mode : Mode} {c : Cursor} {s : Scanned}
    (hc : (Cursor.start source).Before c) (h : Rule.scanFirst? mode.rules c = some s) :
    s.token.Exact source := by
  obtain ⟨before, hbefore⟩ := hc
  have hmade := Rule.made_of_scanFirst? h
  have hne : s.token.text.toList ≠ [] := by
    rw [ne_eq, String.toList_eq_nil_iff]
    exact Rule.text_ne_empty_of_scanFirst? h
  have hwhole := Token.isAttached_eq_false hmade.carries hmade.real
  refine ⟨?_, ?_, ?_⟩
  · rw [hmade.span_eq]
    exact hbefore.exact hmade.reads hne
  · intro _
    rw [hmade.span_eq]
    show _ = slice source c.pos.offset s.stop.pos.offset
    rw [hbefore.slice_eq hmade.reads, String.ofList_toList]
  · rw [hwhole]
    exact fun h => by cases h

theorem exact_fault {mode : Mode} {c : Cursor} {s : Scanned} {t : Token}
    (hc : (Cursor.start source).Before c) (h : Rule.scanFirst? mode.rules c = some s)
    (ht : s.fault = some t) : t.Exact source := by
  have htoken := exact_token hc h
  obtain ⟨before, hbefore⟩ := hc
  have hmade := Rule.made_of_scanFirst? h
  have hoffset : c.pos.offset = before.length := hbefore.offset_eq.trans (Nat.zero_add _)
  have hstart : c = .standing source s.token.span.startOffset := by
    rw [hmade.span_eq]
    show c = .standing source c.pos.offset
    rw [hoffset]
    exact Cursor.eq_standing_of_reads hbefore
  obtain ⟨fault, hfault, rfl⟩ := hmade.fault_eq ht
  refine ⟨htoken.span, ?_, fun _ => ⟨rfl, mode, s, hstart ▸ h, ht, rfl⟩⟩
  intro hwhole
  rw [Token.isAttached_ofFault, bne_eq_false_iff_eq] at hwhole
  exact absurd hwhole hfault

theorem Origin.exact {l : Lexeme} (h : Origin l) (hl : (Cursor.start source).Before l.start) :
    l.token.Exact source := by
  cases h with
  | skipped before moves => exact exact_skipped hl before moves
  | token applies => exact exact_token hl applies
  | fault applies reported => exact exact_fault hl applies reported

end Lexeme

/-! ## Tokens of a session -/

namespace Session

/-- The token comes up in the session: it is handed out by now or to the end, or it is
the answer of a step. -/
def Offers (s : Session) (t : Token) : Prop :=
  t ∈ s.tokens ∨ ∃ action, (s.perform action).1 = .token (some t)

theorem settle_ne_token (s : Session) (outcome : Except MarkError Session)
    (token? : Option Token) : (s.settle outcome).1 ≠ .token token? := by
  cases outcome <;> exact Reply.noConfusion

/-- Only looking at a token and handing it out have a token for an answer, and it is the
next one. -/
theorem next_of_reply {s : Session} (h : s.log.Orderly) {action : Action} {t : Token}
    (ht : (s.perform action).1 = .token (some t)) :
    s.stream[s.log.next]?.map Lexeme.token = some t := by
  cases action with
  | peek => exact (peek_fst h).symm.trans (Reply.token.inj ht)
  | consume => exact (consume_fst h).symm.trans (Reply.token.inj ht)
  | setMode mode => cases ht
  | mark => cases ht
  | rewind => exact (settle_ne_token _ _ _ ht).elim
  | release => exact (settle_ne_token _ _ _ ht).elim

theorem tokens_eq {s : Session} (h : s.log.Orderly) : s.tokens = s.stream.map Lexeme.token :=
  consumed_append_drain h

theorem Offers.mem_stream {s : Session} (h : s.log.Orderly) {t : Token} (ht : s.Offers t) :
    ∃ l ∈ s.stream, l.token = t := by
  rcases ht with ht | ⟨action, ht⟩
  · rw [tokens_eq h] at ht
    exact List.mem_map.1 ht
  · obtain ⟨l, hl, rfl⟩ := Option.map_eq_some_iff.1 (next_of_reply h ht)
    exact ⟨l, List.mem_of_getElem? hl, rfl⟩

/-- Whatever is done to a session, the tokens that come up say exactly where they
stand. -/
theorem exact_of_offers (mode : Mode) (source : String) (actions : List Action) {t : Token}
    (h : (after mode source actions).Offers t) : t.Exact source := by
  have hs := sound_after mode source actions
  obtain ⟨l, hl, rfl⟩ := h.mem_stream hs.orderly
  obtain ⟨stop, -, hchain⟩ := hs.chain_stream
  have horigin : l.Origin :=
    forall_mem_stream (fun _ _ _ => Lexeme.origin_of_mem_scan) mode source actions l hl
  exact horigin.exact (hchain.before_of_mem hl)

/-- The fault of a string that a change of mode takes apart: its span is still that of
the string, although the string will not be handed out. -/
theorem exact_of_dropped_string :
    let s := after .breakout "\r\n'ab\r\n" [.consume, .consume, .setMode .http]
    let fault : Token := .ofFault .missingEndQuote ⟨2, 5, 2, 1, 2, 3⟩ ""
    s.Offers fault ∧ fault.Exact "\r\n'ab\r\n" ∧
      s.drain.1.map Token.kind = [.error, .whiteSpace] := by
  have h : (after .breakout "\r\n'ab\r\n" [.consume, .consume, .setMode .http]).Offers
      (.ofFault .missingEndQuote ⟨2, 5, 2, 1, 2, 3⟩ "") := .inl (by decide +kernel)
  exact ⟨h, exact_of_offers .breakout "\r\n'ab\r\n" [.consume, .consume, .setMode .http] h,
    by decide +kernel⟩

end Session

end Scriptlet
