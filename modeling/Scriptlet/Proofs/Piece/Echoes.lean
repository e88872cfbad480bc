/-
Scriptlet.Proofs.Piece.Echoes — reports that come again when a source is read again from
a place between its tokens.

The fault of an open string or comment is handed out before the token that it is about,
although both are read in one go. Whoever has handed out the fault and reads again from
behind the texts handed out gets the fault once more (`Token.reread_tokenize`). Nothing
else comes again there, and nothing is missing.

`Token.Echoes read tokens` says of two lists that this is all in which they differ: in the
first one such a report may stand several times in a row. Then `Token.collapse` turns the
first list into the second (`Token.Echoes.collapse_eq`), since no report of a source stands
behind itself (`Token.isChain_tokenize`).
-/
import Mathlib.Data.List.Destutter
import Scriptlet.Proofs.Piece.Faults

namespace Scriptlet

namespace Token

/-! ## Repeated reports -/

/-- Whether both tokens report the same open string, or the same open comment. -/
def repeats (a b : Token) : Bool :=
  [Fault.missingEndQuote, .missingEndComment].any
      (fun fault => a.reports fault && b.reports fault) && a.span == b.span

/-- The tokens, with one report left of each run of repeated ones. -/
def collapse (tokens : List Token) : List Token :=
  tokens.destutter fun a b => a.repeats b = false

/-- The fault is about the token: about a string that is open, or about a comment. -/
structure Concerns (fault literal : Token) : Prop where
  span_eq : literal.span = fault.span
  kind : (fault.reports .missingEndQuote = true ∧ literal.kind = .stringLiteral) ∨
    (fault.reports .missingEndComment = true ∧ literal.kind = .comment)

variable {a b t fault : Token} {read tokens front back rest us vs : List Token}

theorem repeats_iff :
    a.repeats b = true ↔
      ((a.reports .missingEndQuote = true ∧ b.reports .missingEndQuote = true) ∨
        (a.reports .missingEndComment = true ∧ b.reports .missingEndComment = true)) ∧
      a.span = b.span := by
  simp [repeats]

theorem repeats_self_iff :
    t.repeats t = true ↔
      t.reports .missingEndQuote = true ∨ t.reports .missingEndComment = true := by
  simp [repeats_iff]

theorem repeats_ofFault (fault : Fault) (span : Span) (text : String) :
    (ofFault fault span text).repeats (ofFault fault span text) = (fault != .unknownToken) := by
  cases fault <;> simp [repeats, reports_ofFault]

theorem repeats_left (h : a.repeats b = true) : a.repeats a = true := by
  rw [repeats_self_iff]
  exact (repeats_iff.1 h).1.imp And.left And.left

theorem kind_of_repeats (h : a.repeats b = true) : b.kind = .error := by
  obtain ⟨⟨-, hb⟩ | ⟨-, hb⟩, -⟩ := repeats_iff.1 h
  · exact kind_of_reports hb
  · exact kind_of_reports hb

theorem Concerns.kind_ne_error {literal : Token} (h : fault.Concerns literal) :
    literal.kind ≠ .error := by
  rcases h.kind with ⟨-, hkind⟩ | ⟨-, hkind⟩ <;> simp [hkind]

theorem collapse_cons (h : a.repeats b = false) :
    collapse (a :: b :: rest) = a :: collapse (b :: rest) := by
  rw [collapse, List.destutter_cons_cons, if_pos h]
  rfl

theorem collapse_again (h : t.repeats t = true) :
    collapse (t :: t :: rest) = collapse (t :: rest) := by
  rw [collapse, List.destutter_cons_cons, if_neg (by simp [h])]
  rfl

/-! ## Lists that differ in repeated reports only -/

/-- The first list is the second one, but that a report in it may stand several times in a
row. -/
inductive Echoes : List Token → List Token → Prop where
  | nil : Echoes [] []
  | keep (t : Token) {read tokens : List Token} (others : Echoes read tokens) :
      Echoes (t :: read) (t :: tokens)
  | again {t : Token} {read tokens : List Token} (reported : t.repeats t = true)
      (others : Echoes read (t :: tokens)) : Echoes (t :: read) (t :: tokens)

namespace Echoes

theorem refl : ∀ tokens, Echoes tokens tokens
  | [] => .nil
  | t :: tokens => .keep t (refl tokens)

theorem append (h : Echoes front us) (h' : Echoes back vs) : Echoes (front ++ back) (us ++ vs) := by
  induction h with
  | nil => exact h'
  | keep t _ ih => exact .keep t ih
  | again reported _ ih => exact .again reported ih

theorem head?_eq (h : Echoes read tokens) : read.head? = tokens.head? := by
  cases h with
  | nil => rfl
  | keep => rfl
  | again => rfl

theorem getLast?_eq (h : Echoes read tokens) : read.getLast? = tokens.getLast? := by
  induction h with
  | nil => rfl
  | keep t _ ih => rw [List.getLast?_cons, List.getLast?_cons, ih]
  | again _ _ ih => rw [List.getLast?_cons, ih, List.getLast?_cons, Option.getD_some]

/-- The last token may be repeated, if it is a report. -/
theorem concat (h : Echoes read tokens) (hlast : t ∈ tokens.getLast?)
    (reported : t.repeats t = true) : Echoes (read ++ [t]) tokens := by
  induction h with
  | nil => cases hlast
  | @keep t' read tokens others ih =>
    cases tokens with
    | nil =>
      cases others
      obtain rfl : t' = t := Option.some.inj hlast
      exact .again reported (.keep t' .nil)
    | cons next tokens =>
      rw [List.getLast?_cons_cons] at hlast
      exact .keep t' (ih hlast)
  | again reported' _ ih => exact .again reported' (ih hlast)

/-- A place in the first list is a place in the second one, or it lies among the copies of
a report. -/
theorem of_append (h : Echoes (front ++ back) tokens) :
    ∃ us vs, tokens = us ++ vs ∧ Echoes front us ∧
      (Echoes back vs ∨ ∃ t ∈ us.getLast?, t.repeats t = true ∧ Echoes back (t :: vs)) := by
  induction front generalizing tokens with
  | nil => exact ⟨[], tokens, rfl, .nil, .inl h⟩
  | cons t front ih =>
    cases h with
    | keep _ others =>
      obtain ⟨us, vs, rfl, hfront, hback⟩ := ih others
      refine ⟨t :: us, vs, rfl, .keep t hfront, hback.imp_right ?_⟩
      rintro ⟨t', hlast, hback⟩
      exact ⟨t', by simp [List.getLast?_cons, Option.mem_def.1 hlast], hback⟩
    | @again _ _ tokens reported others =>
      obtain ⟨us, vs, heq, hfront, hback⟩ := ih others
      cases us with
      | nil =>
        -- Nothing lies before the place but this copy of the report.
        obtain rfl : vs = t :: tokens := heq.symm
        cases hfront
        have hback := hback.resolve_right (by simp)
        exact ⟨[t], tokens, rfl, .keep t .nil, .inr ⟨t, rfl, reported, hback⟩⟩
      | cons t' us =>
        obtain ⟨rfl, rfl⟩ := List.cons.inj heq
        exact ⟨t :: us, vs, rfl, .again reported hfront, hback⟩

/-- A report has no text, so the texts are the same. -/
theorem extent_eq (h : Echoes read tokens)
    (silent : ∀ t ∈ tokens, t.repeats t = true → t.text = "") : extent read = extent tokens := by
  rw [Token.extent_eq, Token.extent_eq]
  congr 1
  induction h with
  | nil => rfl
  | keep t _ ih =>
    rw [List.flatMap_cons, List.flatMap_cons, ih fun t' ht' => silent t' (by simp [ht'])]
  | @again t read tokens reported _ ih =>
    rw [List.flatMap_cons, ih silent, silent t (by simp) reported]
    rfl

theorem eq_of_silent (h : Echoes read tokens) (hnone : ∀ t ∈ tokens, t.repeats t = false) :
    read = tokens := by
  induction h with
  | nil => rfl
  | keep t _ ih => rw [ih fun t' ht' => hnone t' (by simp [ht'])]
  | again reported => exact absurd reported (by simp [hnone])

/-- With one report left of each run, the first list is the second one. -/
theorem collapse_eq (h : Echoes read tokens)
    (hchain : tokens.IsChain fun a b => a.repeats b = false) : collapse read = tokens := by
  induction h with
  | nil => rfl
  | @keep t read tokens others ih =>
    cases read with
    | nil =>
      cases others
      rfl
    | cons next read =>
      obtain ⟨tokens, rfl⟩ := List.head?_eq_some_iff.1 others.head?_eq.symm
      rw [collapse_cons (hchain.rel_head? rfl), ih hchain.tail]
  | @again t read tokens reported others ih =>
    obtain ⟨read, rfl⟩ := List.head?_eq_some_iff.1 others.head?_eq
    rw [collapse_again reported, ih hchain]

end Echoes

end Token

/-! ## Reading again -/

namespace Piece

variable {mode : Mode} {qs rs : List Piece}

/-- What is read from a place between pieces are the tokens of those behind it. -/
theorem map_token_readFrom_standing (h : Lexed mode.rules (qs ++ rs)) :
    (Lexeme.readFrom mode.rules
        (.standing (String.ofList (join (qs ++ rs))) (join qs).length)).map Lexeme.token
      = tokens (Position.start.along (join qs)) rs := by
  have hc : (Cursor.start (String.ofList (join (qs ++ rs)))).rest = join qs ++ join rs := by
    rw [← join_append]
    exact String.toList_ofList
  rw [← Cursor.eq_standing_of_reads (Cursor.reads_past hc)]
  exact map_token_readFrom mode.blank_mem_rules (h.of_append mode.blank_mem_rules).2
    (Cursor.rest_past hc)

/-- White space has no faults. -/
theorem Lexed.faultless {ps : List Piece} (h : Lexed [.blank] ps) : ∀ p ∈ ps, p.fault = none := by
  induction h with
  | nil => simp
  | cut first _ ih =>
    obtain ⟨r, hr, hcuts⟩ := first
    obtain rfl := List.mem_singleton.1 (List.mem_of_find?_eq_some hr)
    cases hcuts with
    | blank => exact List.forall_mem_cons.2 ⟨rfl, ih⟩
  | skip _ _ ih => exact List.forall_mem_cons.2 ⟨rfl, ih⟩

end Piece

namespace Token

variable {mode : Mode} {source : String} {a b t : Token} {front rest us vs : List Token}

/-- A report has no text, and the token that it is about comes next. -/
theorem concerns_tokenize (h : tokenize mode source = front ++ t :: rest)
    (ht : t.repeats t = true) :
    t.text = "" ∧ ∃ literal behind, rest = literal :: behind ∧ t.Concerns literal := by
  obtain ⟨ps, hps, rfl⟩ := Piece.exists_join_eq mode source
  rw [Piece.tokenize_join hps] at h
  have hstands := Piece.stands_of_tokens_eq h
  obtain ⟨others, hrules⟩ := mode.exists_rules_eq
  rw [hrules] at hps
  have hreports := repeats_self_iff.1 ht
  refine ⟨(hstands.text_eq_empty_iff hps (kind_of_repeats ht)).2 hreports, ?_⟩
  rcases hreports with hquote | hcomment
  · obtain ⟨literal, behind, hrest, hkind, hspan, -⟩ := hstands.openString hps hquote
    exact ⟨literal, behind, hrest, hspan, .inl ⟨hquote, hkind⟩⟩
  · obtain ⟨comment, hrest, hkind, hspan, -⟩ := hstands.openComment hps hcomment
    exact ⟨comment, [], hrest, hspan, .inr ⟨hcomment, hkind⟩⟩

/-- No report of a source stands behind itself. -/
theorem repeats_eq_false (h : tokenize mode source = front ++ a :: b :: rest) :
    a.repeats b = false := by
  by_contra hab
  have hab : a.repeats b = true := Bool.not_eq_false _ ▸ hab
  obtain ⟨-, literal, behind, hrest, hconcerns⟩ := concerns_tokenize h (repeats_left hab)
  obtain ⟨rfl, -⟩ := List.cons.inj hrest
  exact hconcerns.kind_ne_error (kind_of_repeats hab)

theorem isChain_tokenize (mode : Mode) (source : String) :
    (tokenize mode source).IsChain fun a b => a.repeats b = false :=
  List.isChain_iff_forall_rel_of_append_cons_cons.2 fun _ _ _ _ => repeats_eq_false

theorem repeats_http (ht : t ∈ tokenize .http source) : t.repeats t = false := by
  obtain ⟨ps, hps, rfl⟩ := Piece.exists_join_eq .http source
  rw [Piece.tokenize_join hps] at ht
  obtain ⟨front, rest, htokens⟩ := List.append_of_mem ht
  have hnone {fault : Fault} (hknown : fault ≠ .unknownToken) : t.reports fault = false := by
    by_contra hreports
    have hreports : t.reports fault = true := Bool.not_eq_false _ ▸ hreports
    obtain ⟨qs, p, rs, r, rfl, -, -, hfault, -⟩ :=
      (Piece.stands_of_tokens_eq htokens).cuts_of_reports hps hreports hknown
    cases (hps.faultless p (by simp)).symm.trans hfault
  rw [← Bool.not_eq_true, repeats_self_iff, hnone (by decide), hnone (by decide)]
  simp

/-- A source that is read again from behind the texts of its first tokens: what comes is
what was to come, or the last of these tokens and then what was to come, the latter only
if this token is a report. -/
theorem reread_tokenize (h : tokenize mode source = us ++ vs) :
    let read := (Lexeme.readFrom mode.rules (.standing source (extent us))).map Lexeme.token
    read = vs ∨ ∃ t ∈ us.getLast?, t.repeats t = true ∧ read = t :: vs := by
  obtain ⟨ps, hps, rfl⟩ := Piece.exists_join_eq mode source
  rw [Piece.tokenize_join hps] at h
  rcases us.eq_nil_or_concat' with rfl | ⟨us, t, rfl⟩
  · left
    have hps : Piece.Lexed mode.rules ([] ++ ps) := hps
    exact (Piece.map_token_readFrom_standing hps).trans h
  · rw [List.append_assoc] at h
    -- The last of the first tokens is the report of a piece, which is read once more then,
    -- or it is the token of a piece, and reading goes on behind this piece.
    cases Piece.stands_of_tokens_eq h with
    | @fault qs rs p fault here is reported =>
      right
      have hextent : extent (Piece.tokens .start qs ++ [ofFault fault (p.span here) ""])
          = (Piece.join qs).length := by
        rw [extent_eq, List.flatMap_append, Piece.flatMap_text_tokens]
        simp [ofFault]
      refine ⟨_, List.getLast?_concat, ?_, ?_⟩
      · rw [repeats_ofFault, bne_iff_ne]
        rintro rfl
        exact hps.known p (by simp) reported
      · rw [hextent, Piece.map_token_readFrom_standing hps, ← is, Piece.tokens_cons, Piece.faultsAt,
          reported]
        rfl
    | @token qs rs p here is =>
      left
      have htokens : Piece.tokens .start qs ++ p.faultsAt here ++ [p.tokenAt here]
          = Piece.tokens .start (qs ++ [p]) := by
        rw [Piece.tokens_append, ← is, Piece.tokens_cons, List.append_assoc]
        rfl
      have hbehind : Position.start.along (Piece.join (qs ++ [p])) = here.along p.text := by
        rw [Piece.join_append, Position.along_append, ← is]
        simp
      rw [List.append_cons] at hps ⊢
      rw [htokens, Piece.extent_tokens, Piece.map_token_readFrom_standing hps, hbehind]

end Token

end Scriptlet
