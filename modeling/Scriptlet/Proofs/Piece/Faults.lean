/-
Scriptlet.Proofs.Piece.Faults — where faults stand among the tokens of a source.

`Token.FaultsPlaced source tokens` says it for each of the three faults: the fault of an
open string stands before this string, which a line break or the end of the source ends;
the fault of an open comment stands before this comment, and both are the end of the
source; and what is skipped is reported once.

A fault is a token of its own but comes from a piece, and what follows a piece is known
from how the rules cut the text (`Piece.Lexed`). So a place in a list of tokens is first
told as a place in a list of pieces (`Piece.Stands`), before the token of a piece or before
the fault of that token.
-/
import Scriptlet.Proofs.Piece.LineFeed
import Scriptlet.Proofs.Piece.Slice

namespace Scriptlet

open Text

namespace Token

/-! ## Faults among tokens -/

/-- Whether the token is a report of the fault. -/
def reports (fault : Fault) (t : Token) : Bool :=
  t.kind == .error && t.value == some (.fault fault)

/-- The text is a quote and a content in which neither this quote nor a line feed occurs. -/
def IsOpenString (text : String) : Prop :=
  ∃ quote content, Rule.isQuote quote = true ∧ quote ∉ content ∧ '\n' ∉ content ∧
    text.toList = quote :: content

/-- The text is a quote, such a content, and the quote again. -/
def IsClosedString (text : String) : Prop :=
  ∃ quote content, Rule.isQuote quote = true ∧ quote ∉ content ∧ '\n' ∉ content ∧
    text.toList = quote :: (content ++ [quote])

/-- No token follows, or white space does that begins with a line break. -/
def LineEnds (behind : List Token) : Prop :=
  behind = [] ∨ ∃ blank others, behind = blank :: others ∧ blank.kind = .whiteSpace ∧
    ∃ lineBreak, IsLineBreak lineBreak ∧ lineBreak <+: blank.text.toList

/-- Faults stand before what they are about, and nowhere else. -/
structure FaultsPlaced (source : String) (tokens : List Token) : Prop where
  openString : ∀ front t rest, tokens = front ++ t :: rest → t.reports .missingEndQuote = true →
    ∃ literal behind, rest = literal :: behind ∧ literal.kind = .stringLiteral ∧
      literal.span = t.span ∧ IsOpenString literal.text ∧ LineEnds behind
  closedString : ∀ front t rest, tokens = front ++ t :: rest → t.kind = .stringLiteral →
    (∀ before ∈ front.getLast?, before.reports .missingEndQuote = false) → IsClosedString t.text
  openComment : ∀ front t rest, tokens = front ++ t :: rest →
    t.reports .missingEndComment = true →
    ∃ comment, rest = [comment] ∧ comment.kind = .comment ∧ comment.span = t.span ∧
      comment.span.endOffset = source.length
  openComment_once : tokens.countP (reports .missingEndComment) ≤ 1
  skipped_once : ∀ front t next rest, tokens = front ++ t :: next :: rest →
    t.reports .unknownToken = true → next.reports .unknownToken = false
  text_eq_empty_iff : ∀ t ∈ tokens, t.kind = .error →
    (t.text = "" ↔ t.reports .missingEndQuote = true ∨ t.reports .missingEndComment = true)

theorem reports_ofFault (fault fault' : Fault) (span : Span) (text : String) :
    (ofFault fault span text).reports fault' = (fault == fault') := by
  cases fault <;> cases fault' <;> rfl

theorem kind_of_reports {t : Token} {fault : Fault} (h : t.reports fault = true) :
    t.kind = .error :=
  eq_of_beq (Bool.and_eq_true _ _ ▸ h).1

theorem value_of_reports {t : Token} {fault : Fault} (h : t.reports fault = true) :
    t.value = some (.fault fault) :=
  eq_of_beq (Bool.and_eq_true _ _ ▸ h).2

end Token

namespace Piece

open Rule Token

/-! ## Places between tokens as places between pieces -/

/-- The token of a piece that stands at a place, without the fault. -/
def tokenAt (p : Piece) (pos : Position) : Token :=
  ⟨p.kind, p.span pos, String.ofList p.text, p.value⟩

/-- The fault of a piece that stands at a place, if it has one. -/
def faultsAt (p : Piece) (pos : Position) : List Token :=
  p.fault.toList.map (Token.ofFault · (p.span pos) "")

theorem tokens_cons (pos : Position) (p : Piece) (ps : List Piece) :
    tokens pos (p :: ps) = p.faultsAt pos ++ p.tokenAt pos :: tokens (pos.along p.text) ps := by
  rw [tokens, tokensAt, List.append_assoc]
  rfl

/-- A token among the tokens of pieces, with those in front of it and those behind it: it is
the fault of a piece or its token. -/
inductive Stands (pos : Position) : List Piece → List Token → Token → List Token → Prop where
  | fault {qs rs : List Piece} {p : Piece} {fault : Fault} {here : Position}
      (is : here = pos.along (join qs)) (reported : p.fault = some fault) :
      Stands pos (qs ++ p :: rs) (tokens pos qs) (.ofFault fault (p.span here) "")
        (p.tokenAt here :: tokens (here.along p.text) rs)
  | token {qs rs : List Piece} {p : Piece} {here : Position} (is : here = pos.along (join qs)) :
      Stands pos (qs ++ p :: rs) (tokens pos qs ++ p.faultsAt here) (p.tokenAt here)
        (tokens (here.along p.text) rs)

variable {rules others : List Rule} {r : Rule} {p : Piece} {ps rs : List Piece}
  {pos : Position} {front rest : List Token} {t : Token} {text : List Char}

/-- A piece in front changes nothing of where the token stands. -/
theorem Stands.cons (h : Stands (pos.along p.text) ps front t rest) :
    Stands pos (p :: ps) (p.faultsAt pos ++ p.tokenAt pos :: front) t rest := by
  cases h with
  | @fault qs rs q fault here is reported =>
    rw [← tokens_cons pos p qs]
    refine @Stands.fault pos (p :: qs) rs q fault here ?_ reported
    rw [is, join_cons, Position.along_append]
  | @token qs rs q here is =>
    have hfront : p.faultsAt pos ++ p.tokenAt pos ::
        (tokens (pos.along p.text) qs ++ q.faultsAt here) =
          tokens pos (p :: qs) ++ q.faultsAt here := by
      rw [tokens_cons, List.append_assoc, List.cons_append]
    rw [hfront]
    refine @Stands.token pos (p :: qs) rs q here ?_
    rw [is, join_cons, Position.along_append]

/-- Every token stands somewhere. -/
theorem stands_of_tokens_eq (h : tokens pos ps = front ++ t :: rest) :
    Stands pos ps front t rest := by
  induction ps generalizing pos front with
  | nil => simp [tokens] at h
  | cons p ps ih =>
    rw [tokens_cons] at h
    have hcons {tail : List Token} (htail : tokens (pos.along p.text) ps = tail ++ t :: rest) :=
      (ih htail).cons
    have htoken := @Stands.token pos [] ps p pos rfl
    cases hfault : p.fault with
    | none =>
      have hnone : p.faultsAt pos = [] := by rw [faultsAt, hfault]; rfl
      rw [hnone] at h hcons htoken
      cases front with
      | nil =>
        cases h
        exact htoken
      | cons t' front =>
        simp only [List.nil_append, List.cons_append, List.cons.injEq] at h
        obtain ⟨rfl, h⟩ := h
        exact hcons h
    | some fault =>
      have hsome : p.faultsAt pos = [.ofFault fault (p.span pos) ""] := by
        rw [faultsAt, hfault]; rfl
      rw [hsome] at h hcons htoken
      rcases front with _ | ⟨t', _ | ⟨t'', front⟩⟩
      · cases h
        exact @Stands.fault pos [] ps p fault pos rfl hfault
      · cases h
        exact htoken
      · simp only [List.cons_append, List.nil_append, List.cons.injEq] at h
        obtain ⟨rfl, rfl, h⟩ := h
        exact hcons h

/-! ## Single pieces -/

/-- The first piece is cut off by a rule, or it is what was skipped. -/
theorem Lexed.cuts_or_skips (h : Lexed rules (p :: ps)) :
    (∃ r, Rule.Cuts r p (join ps)) ∨ ∃ run, p = unknown run ∧ Skips rules run (join ps) := by
  cases h with
  | cut first =>
    obtain ⟨r, -, hcuts⟩ := first
    exact .inl ⟨r, hcuts⟩
  | @skip run _ first => exact .inr ⟨run, rfl, first⟩

/-- Only what was skipped is a fault by itself. -/
theorem Lexed.skips_of_kind (h : Lexed rules (p :: ps)) (hkind : p.kind = .error) :
    ∃ run, p = unknown run ∧ Skips rules run (join ps) :=
  h.cuts_or_skips.resolve_left fun ⟨_, hcuts⟩ => hcuts.real hkind

/-- Nothing is skipped behind what is skipped. -/
theorem Lexed.cuts_of_skips {run : List Char} (h : Lexed rules (p :: ps))
    (hskips : Skips rules run (join (p :: ps))) : ∃ r, Rule.Cuts r p (join ps) := by
  refine h.cuts_or_skips.resolve_right ?_
  rintro ⟨run', rfl, first⟩
  have hne : join (unknown run' :: ps) ≠ [] := by simp [unknown, first.nonempty]
  exact hskips.stops hne (first.silent _ first.nonempty List.suffix_rfl)

/-- A piece that a rule cuts off reports nothing that was skipped. -/
theorem reports_unknown_of_cuts {text : List Char} (h : r.Cuts p text)
    (ht : t ∈ p.tokensAt pos) : t.reports .unknownToken = false := by
  rcases List.mem_append.1 ht with ht | ht
  · obtain ⟨fault, hfault, rfl⟩ := List.mem_map.1 ht
    rw [reports_ofFault, beq_eq_false_iff_ne]
    rintro rfl
    exact h.known (Option.mem_toList.1 hfault)
  · rw [List.mem_singleton.1 ht]
    by_contra hreports
    exact h.real (kind_of_reports (Bool.not_eq_false _ ▸ hreports))

theorem openString_of_cuts (h : r.Cuts p text) (hfault : p.fault = some .missingEndQuote) :
    p.kind = .stringLiteral ∧ ∃ quote content, isQuote quote = true ∧
      Run (insideString quote) content text ∧ firstLogical? text ≠ some quote ∧
        p.text = quote :: content := by
  cases h with
  | blank | paren | operator | lineComment | lastLineComment | blockComment | openComment
  | string | number | symbol => cases hfault
  | openString is body never => exact ⟨rfl, _, _, is, body, never, rfl⟩

theorem closedString_of_cuts (h : r.Cuts p text) (hkind : p.kind = .stringLiteral)
    (hfault : p.fault ≠ some .missingEndQuote) : IsClosedString (String.ofList p.text) := by
  cases h with
  | blank | paren | operator | lineComment | lastLineComment | blockComment | openComment
  | number | symbol => cases hkind
  | openString => exact absurd rfl hfault
  | string is body =>
    obtain ⟨hquote, hlineFeed⟩ := not_mem_of_run body
    exact ⟨_, _, is, hquote, hlineFeed, String.toList_ofList⟩

theorem openComment_of_cuts (h : r.Cuts p text) (hfault : p.fault = some .missingEndComment) :
    p.kind = .comment ∧ text = [] := by
  cases h with
  | blank | paren | operator | lineComment | lastLineComment | blockComment | string
  | openString | number | symbol => cases hfault
  | openComment => exact ⟨rfl, rfl⟩

/-! ## What follows an open string -/

/-- Where a line ends, white space is cut off that begins with the line break. -/
theorem Lexed.blank_of_lineFeed (h : Lexed (.blank :: others) (p :: ps))
    (hline : firstLogical? (join (p :: ps)) = some '\n') :
    p.kind = .whiteSpace ∧ p.fault = none ∧
      ∃ lineBreak, IsLineBreak lineBreak ∧ lineBreak <+: p.text := by
  have hopens : opens .blank (join (p :: ps)) = true := by
    have hany := any_firstLogical? isBlank (by decide) (join (p :: ps))
    rw [hline] at hany
    rw [opens_eq (by decide)]
    exact hany.symm.trans (by decide)
  have hblank : opening? (.blank :: others) (join (p :: ps)) = some .blank := opening?_blank hopens
  cases h with
  | skip first => cases (first.silent _ first.nonempty List.suffix_rfl).symm.trans hblank
  | cut first =>
    obtain ⟨r, hr, hcuts⟩ := first
    cases hr.symm.trans hblank
    cases hcuts with
    | @blank run _ nonempty blanks =>
      rw [join_cons, firstLogical?_append nonempty blanks.unbroken] at hline
      exact ⟨rfl, rfl, lineBreak_of_firstLogical? hline⟩

theorem Lexed.lineEnds (h : Lexed (.blank :: others) ps)
    (hline : join ps ≠ [] → firstLogical? (join ps) = some '\n') (pos : Position) :
    LineEnds (tokens pos ps) := by
  cases ps with
  | nil => exact .inl rfl
  | cons p ps =>
    have hne : join (p :: ps) ≠ [] := by simp [h.text_ne_nil]
    obtain ⟨hkind, hfault, lineBreak, hbreak, hfront⟩ := h.blank_of_lineFeed (hline hne)
    refine .inr ⟨p.tokenAt pos, tokens (pos.along p.text) ps, ?_, hkind, lineBreak, hbreak, ?_⟩
    · rw [tokens_cons, faultsAt, hfault]
      rfl
    · rw [tokenAt, String.toList_ofList]
      exact hfront

/-! ## Where the faults of pieces stand -/

section Places

variable (h : Lexed (.blank :: others) ps) (hstands : Stands pos ps front t rest)
include h hstands

/-- What reports anything but skipped text comes from a piece that a rule cuts off, and
stands before its token. -/
theorem Stands.cuts_of_reports {fault : Fault} (hreports : t.reports fault = true)
    (hknown : fault ≠ .unknownToken) :
    ∃ qs p rs r, ps = qs ++ p :: rs ∧ Rule.Cuts r p (join rs) ∧ Lexed (.blank :: others) rs ∧
      p.fault = some fault ∧ t.span = p.span (pos.along (join qs)) ∧
        rest = p.tokenAt (pos.along (join qs)) ::
          tokens ((pos.along (join qs)).along p.text) rs := by
  cases hstands with
  | token =>
    obtain ⟨run, rfl, -⟩ := (h.of_append List.mem_cons_self).2.skips_of_kind
      (kind_of_reports hreports)
    cases value_of_reports hreports
    exact absurd rfl hknown
  | @fault qs rs p fault' here is reported =>
    rw [reports_ofFault] at hreports
    obtain rfl := eq_of_beq hreports
    have hpieces := (h.of_append List.mem_cons_self).2
    rcases hpieces.cuts_or_skips with ⟨r, hcuts⟩ | ⟨run, rfl, -⟩
    · exact ⟨qs, p, rs, r, rfl, hcuts, hpieces.tail, reported, is ▸ rfl, is ▸ rfl⟩
    · cases reported

theorem Stands.openString (hreports : t.reports .missingEndQuote = true) :
    ∃ literal behind, rest = literal :: behind ∧ literal.kind = .stringLiteral ∧
      literal.span = t.span ∧ IsOpenString literal.text ∧ LineEnds behind := by
  obtain ⟨qs, p, rs, r, -, hcuts, hbehind, hfault, hspan, rfl⟩ :=
    hstands.cuts_of_reports h hreports (by decide)
  obtain ⟨hkind, quote, content, is, body, never, htext⟩ := openString_of_cuts hcuts hfault
  obtain ⟨hquote, hlineFeed⟩ := not_mem_of_run body
  have hstring : IsOpenString (String.ofList p.text) :=
    ⟨quote, content, is, hquote, hlineFeed, String.toList_ofList.trans htext⟩
  exact ⟨_, _, rfl, hkind, hspan.symm, hstring,
    hbehind.lineEnds (firstLogical?_of_never body never) _⟩

theorem Stands.closedString (hkind : t.kind = .stringLiteral)
    (hbefore : ∀ before ∈ front.getLast?, before.reports .missingEndQuote = false) :
    IsClosedString t.text := by
  cases hstands with
  | fault => cases hkind
  | @token qs rs p here is =>
    rcases (h.of_append List.mem_cons_self).2.cuts_or_skips with ⟨r, hcuts⟩ | ⟨run, rfl, -⟩
    · refine closedString_of_cuts hcuts hkind fun hfault => ?_
      have hreports := hbefore (.ofFault .missingEndQuote (p.span here) "")
        (by simp [faultsAt, hfault])
      rw [reports_ofFault] at hreports
      cases hreports
    · cases hkind

theorem Stands.openComment (hreports : t.reports .missingEndComment = true) :
    ∃ comment, rest = [comment] ∧ comment.kind = .comment ∧ comment.span = t.span ∧
      comment.span.endOffset = pos.offset + (join ps).length := by
  obtain ⟨qs, p, rs, r, rfl, hcuts, hbehind, hfault, hspan, rfl⟩ :=
    hstands.cuts_of_reports h hreports (by decide)
  obtain ⟨hkind, hend⟩ := openComment_of_cuts hcuts hfault
  obtain rfl : rs = [] := hbehind.eq_nil_of_join hend
  refine ⟨_, rfl, hkind, hspan.symm, ?_⟩
  rw [join_append, List.length_append, ← Nat.add_assoc, ← Position.offset_along, join_cons,
    join_nil, List.append_nil]
  exact Position.offset_along ..

theorem Stands.skipped_once {next : Token} {behind : List Token} (hrest : rest = next :: behind)
    (hreports : t.reports .unknownToken = true) : next.reports .unknownToken = false := by
  cases hstands with
  | @fault qs rs p fault here is reported =>
    rw [reports_ofFault] at hreports
    obtain rfl := eq_of_beq hreports
    exact absurd reported (h.known p (by simp))
  | @token qs rs p here is =>
    have hpieces := (h.of_append List.mem_cons_self).2
    obtain ⟨run, rfl, hskips⟩ := hpieces.skips_of_kind (kind_of_reports hreports)
    cases rs with
    | nil => cases hrest
    | cons q rs =>
      obtain ⟨r, hcuts⟩ := hpieces.tail.cuts_of_skips hskips
      obtain ⟨t', ts, ht'⟩ := List.exists_cons_of_ne_nil
        (by simp [tokensAt] : q.tokensAt (here.along (unknown run).text) ≠ [])
      rw [tokens, ht', List.cons_append] at hrest
      obtain ⟨rfl, -⟩ := List.cons.inj hrest
      have hmem : t' ∈ q.tokensAt (here.along (unknown run).text) := ht' ▸ List.mem_cons_self
      exact reports_unknown_of_cuts hcuts hmem

theorem Stands.text_eq_empty_iff (hkind : t.kind = .error) :
    t.text = "" ↔ t.reports .missingEndQuote = true ∨ t.reports .missingEndComment = true := by
  cases hstands with
  | @fault qs rs p fault here is reported =>
    have hknown : fault ≠ .unknownToken := by
      rintro rfl
      exact h.known p (by simp) reported
    simp only [reports_ofFault]
    cases fault with
    | missingEndQuote => simp [ofFault]
    | missingEndComment => simp [ofFault]
    | unknownToken => exact absurd rfl hknown
  | @token qs rs p here is =>
    obtain ⟨run, rfl, hskips⟩ := (h.of_append List.mem_cons_self).2.skips_of_kind hkind
    simp [reports, tokenAt, unknown, hskips.nonempty]

end Places

end Piece

/-! ## Sources -/

theorem Token.countP_le_one {test : Token → Bool} {tokens : List Token}
    (h : ∀ front t rest, tokens = front ++ t :: rest → test t = true → rest.countP test = 0) :
    tokens.countP test ≤ 1 := by
  induction tokens with
  | nil => simp
  | cons t tokens ih =>
    by_cases ht : test t = true
    · simp [ht, h [] t tokens rfl ht]
    · rw [List.countP_cons_of_neg ht]
      refine ih fun front t' rest htokens => h (t :: front) t' rest ?_
      rw [htokens, List.cons_append]

theorem Mode.exists_rules_eq (mode : Mode) : ∃ others, mode.rules = .blank :: others := by
  cases mode <;> exact ⟨_, rfl⟩

/-- Where the faults of a source stand. -/
theorem Token.faultsPlaced_tokenize (mode : Mode) (source : String) :
    FaultsPlaced source (tokenize mode source) := by
  obtain ⟨ps, hps, rfl⟩ := Piece.exists_join_eq mode source
  rw [Piece.tokenize_join hps]
  obtain ⟨others, hrules⟩ := mode.exists_rules_eq
  rw [hrules] at hps
  have hlength : (String.ofList (Piece.join ps)).length
      = Position.start.offset + (Piece.join ps).length := by
    rw [String.length_ofList]
    exact (Nat.zero_add _).symm
  have hcomment (front : List Token) (t : Token) (rest : List Token)
      (htokens : Piece.tokens .start ps = front ++ t :: rest)
      (hreports : t.reports .missingEndComment = true) :=
    (Piece.stands_of_tokens_eq htokens).openComment hps hreports
  constructor
  case openString =>
    intro front t rest htokens
    exact (Piece.stands_of_tokens_eq htokens).openString hps
  case closedString =>
    intro front t rest htokens
    exact (Piece.stands_of_tokens_eq htokens).closedString hps
  case openComment =>
    rw [hlength]
    exact hcomment
  case openComment_once =>
    refine Token.countP_le_one fun front t rest htokens hreports => ?_
    obtain ⟨comment, rfl, hkind, -⟩ := hcomment front t rest htokens hreports
    simp [reports, hkind]
  case skipped_once =>
    intro front t next rest htokens
    exact (Piece.stands_of_tokens_eq htokens).skipped_once hps rfl
  case text_eq_empty_iff =>
    intro t ht
    obtain ⟨front, rest, htokens⟩ := List.append_of_mem ht
    exact (Piece.stands_of_tokens_eq htokens).text_eq_empty_iff hps

end Scriptlet
