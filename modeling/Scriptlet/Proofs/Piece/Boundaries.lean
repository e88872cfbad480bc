/-
Scriptlet.Proofs.Piece.Boundaries — what the tokens of a source are like, and what may
stand next to each other.

`Token.WellFormed t` is about one token: its value is of its kind, and both say the same
as its text. `Token.EndsBefore t rest` is about a token and those behind it: white space,
numbers, symbols and line comments go on as far as they can, so that what follows is not
more of the same.

That a token goes on as far as it can is a run of characters that the text behind it stops
(`Text.Run`). What stops it is the first character of the next piece
(`Piece.Lexed.stops_next`), and pieces of each rule begin with characters of their own
(`Rule.begins`). A fault in between makes no difference: it is the next token then, and not
of a kind that is asked about.
-/
import Scriptlet.Proofs.Piece.Faults
import Scriptlet.Proofs.Piece.Item

namespace Scriptlet

open Text

namespace Token

/-! ## Tokens and what is behind them -/

/-- The text is a letter, an underscore or a dollar sign, and behind it letters, numbers
and underscores, but no further dollar sign. -/
def IsName (text : String) : Prop :=
  ∃ x others, text.toList = x :: others ∧ (isAlphabetic x = true ∨ x = '_' ∨ x = '$') ∧
    (∀ y ∈ others, isAlphanumeric y = true ∨ y = '_') ∧ '$' ∉ others

/-- Kind, value and text of the token say the same. -/
structure WellFormed (t : Token) : Prop where
  carries : t.kind.carries t.value = true
  paren : ∀ bracket side, t.value = some (.paren bracket side) →
    t.text.toList = [bracket.char side]
  operator : ∀ o, t.value = some (.operator o) → t.text.toList = [o.char]
  symbol : t.kind = .symbol → t.value = some (.symbol t.text) ∧ IsName t.text
  whiteSpace : t.kind = .whiteSpace → t.text ≠ "" ∧ ∀ x ∈ t.text.toList, isBlank x = true

/-- The token does not end too early for what is behind it. -/
structure EndsBefore (t : Token) (rest : List Token) : Prop where
  whiteSpace : t.kind = .whiteSpace → ∀ next ∈ rest.head?, next.kind ≠ .whiteSpace
  number : t.kind = .numberLiteral → ∀ next ∈ rest.head?, next.kind ≠ .numberLiteral
  symbol_number : t.kind = .symbol → ∀ next ∈ rest.head?, next.kind ≠ .numberLiteral
  symbol_symbol : t.kind = .symbol → ∀ next ∈ rest.head?, next.kind = .symbol →
    next.text.toList.head? = some '$'
  symbol_continued : t.kind = .symbol → ∀ next ∈ rest.head?,
    ∀ x ∈ next.text.toList.head?, isAlphanumeric x = false
  lineComment : t.kind = .comment → ['/', '/'] <+: t.text.toList →
    t.text.toList.getLast? ≠ some '\n' → rest = []

end Token

namespace Rule

variable {r : Rule} {p : Piece} {text : List Char} {x : Char}

/-! ## Characters -/

theorem isDigit_continuesSymbol (h : x.isDigit = true) : continuesSymbol x = true := by
  have hcodes : ∀ n ∈ List.range' '0'.toNat 10, continuesSymbol (Char.ofNat n) = true := by
    decide +kernel
  rw [Char.isDigit_iff_toNat] at h
  have hx := hcodes x.toNat (List.mem_range'_1.2 ⟨h.1, Nat.lt_succ_of_le h.2⟩)
  rwa [Char.ofNat_toNat] at hx

/-- What begins a symbol and does not go on with one is a dollar sign. -/
theorem eq_dollar (hstarts : startsSymbol x = true) (hstops : continuesSymbol x = false) :
    x = '$' := by
  simp only [startsSymbol, Bool.or_eq_true, beq_iff_eq] at hstarts
  simp only [continuesSymbol, isAlphanumeric, Bool.or_eq_false_iff, beq_eq_false_iff_ne] at hstops
  obtain ⟨⟨hletter, -⟩, hunderscore⟩ := hstops
  rcases hstarts with (h | h) | h
  · rw [hletter] at h
    cases h
  · exact absurd h hunderscore
  · exact h

theorem isName_of_run {others : List Char} (starts : startsSymbol x = true)
    (continues : Run continuesSymbol others text) : Token.IsName (String.ofList (x :: others)) := by
  refine ⟨x, others, String.toList_ofList, ?_, fun y hy => ?_, fun hdollar => ?_⟩
  · simpa [startsSymbol, or_assoc] using starts
  · simpa [continuesSymbol] using continues.all y hy
  · have hcontinues := continues.all '$' hdollar
    revert hcontinues
    decide +kernel

/-! ## Rules by the kind of their tokens -/

/-- The kind of the tokens that the rule makes. -/
def kind : Rule → Kind
  | .blank => .whiteSpace
  | .paren => .paren
  | .operator => .operator
  | .comment => .comment
  | .string => .stringLiteral
  | .number => .numberLiteral
  | .symbol => .symbol

theorem kind_inj {r r' : Rule} (h : r.kind = r'.kind) : r = r' := by
  cases r <;> cases r' <;> first | rfl | cases h

namespace Cuts

theorem kind_eq (h : r.Cuts p text) : p.kind = r.kind := by
  cases h <;> rfl

theorem begins_head (h : r.Cuts p text) : ∃ x ∈ p.text.head?, r.begins x = true := by
  have hopens := (Bool.and_eq_true _ _ ▸ h.opens).1
  exact (Option.any_eq_true ..).1 hopens

theorem run_of_blank (h : Cuts .blank p text) : p.text ≠ [] ∧ Run isBlank p.text text := by
  cases h with
  | blank nonempty blanks => exact ⟨nonempty, blanks⟩

theorem run_of_number (h : Cuts .number p text) : Run Char.isDigit p.text text := by
  cases h with
  | number _ run => exact run

theorem run_of_symbol (h : Cuts .symbol p text) :
    ∃ x others, p.text = x :: others ∧ startsSymbol x = true ∧ Run continuesSymbol others text ∧
      p.value = some (.symbol (String.ofList p.text)) := by
  cases h with
  | symbol starts continues => exact ⟨_, _, rfl, starts, continues, rfl⟩

/-- Only the last line of a text is a line comment without a line feed. -/
theorem nil_of_lineComment (h : Cuts .comment p text) (hslashes : ['/', '/'] <+: p.text)
    (hlast : p.text.getLast? ≠ some '\n') : text = [] := by
  cases h with
  | lineComment breaks =>
    refine absurd ?_ hlast
    rcases breaks with rfl | rfl <;> simp [List.getLast?_cons]
  | lastLineComment => rfl
  | blockComment => simp at hslashes
  | openComment => rfl

theorem text_of_paren {bracket : Bracket} {side : Side} (h : r.Cuts p text)
    (hvalue : p.value = some (.paren bracket side)) : p.text = [bracket.char side] := by
  cases h with
  | blank | operator | lineComment | lastLineComment | blockComment | openComment | string
  | openString | number | symbol => cases hvalue
  | paren is =>
    cases hvalue
    rw [Bracket.eq_char is]

theorem text_of_operator {o : Operator} (h : r.Cuts p text)
    (hvalue : p.value = some (.operator o)) : p.text = [o.char] := by
  cases h with
  | blank | paren | lineComment | lastLineComment | blockComment | openComment | string
  | openString | number | symbol => cases hvalue
  | operator is =>
    cases hvalue
    rw [Operator.eq_char is]

end Cuts

end Rule

namespace Piece

open Rule Token

variable {rules : List Rule} {r : Rule} {p : Piece} {ps : List Piece} {pos : Position}
  {next : Token} {x : Char} {run : List Char} {test : Char → Bool}

/-! ## The first token of some pieces -/

theorem Lexed.cuts_of_kind (h : Lexed rules (p :: ps)) (hkind : p.kind = r.kind) :
    r.Cuts p (join ps) := by
  rcases h.cuts_or_skips with ⟨r', hcuts⟩ | ⟨run, rfl, -⟩
  · rw [← kind_inj (hcuts.kind_eq.symm.trans hkind)]
    exact hcuts
  · cases r <;> cases hkind

/-- The first token is the token of the first piece, or a fault. -/
theorem head_tokens (h : next ∈ (tokens pos ps).head?) :
    ∃ q qs, ps = q :: qs ∧ (next = q.tokenAt pos ∨ next.kind = .error ∧ next.text = "") := by
  cases ps with
  | nil => cases h
  | cons q qs =>
    refine ⟨q, qs, rfl, ?_⟩
    rw [tokens_cons, faultsAt] at h
    cases hfault : q.fault with
    | none =>
      rw [hfault] at h
      cases h
      exact .inl rfl
    | some fault =>
      rw [hfault] at h
      cases h
      exact .inr ⟨rfl, rfl⟩

/-- A run stops before the next token. -/
theorem Lexed.stops_next (h : Lexed rules ps) (hrun : Run test run (join ps))
    (htest : test '\r' = test '\n') (hnext : next ∈ (tokens pos ps).head?)
    (hx : x ∈ next.text.toList.head?) : test x = false := by
  obtain ⟨q, qs, rfl, rfl | ⟨-, htext⟩⟩ := head_tokens hnext
  · rw [tokenAt, String.toList_ofList] at hx
    refine hrun.stops_head? htest x ?_
    rw [join_cons, List.head?_append, hx, Option.some_or]
    rfl
  · rw [htext] at hx
    cases hx

/-- The next token begins as its kind says. -/
theorem Lexed.begins_next (h : Lexed rules ps) (hnext : next ∈ (tokens pos ps).head?)
    (hkind : next.kind = r.kind) : ∃ x ∈ next.text.toList.head?, r.begins x = true := by
  obtain ⟨q, qs, rfl, rfl | ⟨herror, -⟩⟩ := head_tokens hnext
  · rw [tokenAt, String.toList_ofList]
    exact (h.cuts_of_kind hkind).begins_head
  · rw [herror] at hkind
    cases r <;> cases hkind

/-- What a run goes on with is not what the next token begins with. -/
theorem Lexed.kind_next_ne (h : Lexed rules ps) (hrun : Run test run (join ps))
    (htest : test '\r' = test '\n') (hnext : next ∈ (tokens pos ps).head?)
    (hbegins : ∀ x, r.begins x = true → test x = true) : next.kind ≠ r.kind := by
  intro hkind
  obtain ⟨x, hx, hr⟩ := h.begins_next hnext hkind
  have hstop := h.stops_next hrun htest hnext hx
  rw [hbegins x hr] at hstop
  cases hstop

/-! ## The token of a piece -/

theorem Lexed.wellFormed (h : Lexed rules (p :: ps)) (pos : Position) :
    (p.tokenAt pos).WellFormed := by
  constructor
  case carries =>
    rcases h.cuts_or_skips with ⟨r, hcuts⟩ | ⟨run, rfl, -⟩
    · exact hcuts.carries
    · rfl
  case paren =>
    intro bracket side hvalue
    rcases h.cuts_or_skips with ⟨r, hcuts⟩ | ⟨run, rfl, -⟩
    · exact String.toList_ofList.trans (hcuts.text_of_paren hvalue)
    · cases hvalue
  case operator =>
    intro o hvalue
    rcases h.cuts_or_skips with ⟨r, hcuts⟩ | ⟨run, rfl, -⟩
    · exact String.toList_ofList.trans (hcuts.text_of_operator hvalue)
    · cases hvalue
  case symbol =>
    intro hkind
    have hcuts : Cuts .symbol p (join ps) := h.cuts_of_kind hkind
    obtain ⟨x, others, htext, starts, continues, hvalue⟩ := hcuts.run_of_symbol
    refine ⟨hvalue, ?_⟩
    rw [tokenAt, htext]
    exact isName_of_run starts continues
  case whiteSpace =>
    intro hkind
    have hcuts : Cuts .blank p (join ps) := h.cuts_of_kind hkind
    obtain ⟨hne, blanks⟩ := hcuts.run_of_blank
    rw [tokenAt, String.toList_ofList]
    refine ⟨fun hempty => hne ?_, blanks.all⟩
    exact String.ofList_eq_empty_iff.1 hempty

theorem Lexed.endsBefore (h : Lexed rules (p :: ps)) (pos pos' : Position) :
    (p.tokenAt pos).EndsBefore (tokens pos' ps) := by
  constructor
  case whiteSpace =>
    intro hkind next hnext
    have hcuts : Cuts .blank p (join ps) := h.cuts_of_kind hkind
    exact h.tail.kind_next_ne (r := .blank) hcuts.run_of_blank.2 (by decide) hnext fun _ hx => hx
  case number =>
    intro hkind next hnext
    have hcuts : Cuts .number p (join ps) := h.cuts_of_kind hkind
    exact h.tail.kind_next_ne (r := .number) hcuts.run_of_number (by decide) hnext fun _ hx => hx
  case lineComment =>
    intro hkind hslashes hlast
    have hcuts : Cuts .comment p (join ps) := h.cuts_of_kind hkind
    rw [tokenAt, String.toList_ofList] at hslashes hlast
    rw [h.tail.eq_nil_of_join (hcuts.nil_of_lineComment hslashes hlast)]
    rfl
  -- What is behind a symbol stops its run, so it begins with none of the characters that
  -- go on with a symbol.
  all_goals
    intro hkind next hnext
    have hcuts : Cuts .symbol p (join ps) := h.cuts_of_kind hkind
    obtain ⟨x, others, -, -, continues, -⟩ := hcuts.run_of_symbol
    have hreturn : continuesSymbol '\r' = continuesSymbol '\n' := by decide +kernel
    have hstops (y : Char) := h.tail.stops_next continues hreturn hnext (x := y)
  case symbol_number =>
    exact h.tail.kind_next_ne (r := .number) continues hreturn hnext
      fun _ => isDigit_continuesSymbol
  case symbol_symbol =>
    intro hsymbol
    obtain ⟨y, hy, hbegins⟩ := h.tail.begins_next (r := .symbol) hnext hsymbol
    rw [← eq_dollar hbegins (hstops y hy)]
    exact hy
  case symbol_continued =>
    intro y hy
    have hstop := hstops y hy
    simp only [continuesSymbol, Bool.or_eq_false_iff] at hstop
    exact hstop.1

end Piece

/-! ## Sources -/

namespace Token

theorem wellFormed_ofFault (fault : Fault) (span : Span) : (ofFault fault span "").WellFormed where
  carries := rfl
  paren := fun _ _ h => by cases h
  operator := fun _ h => by cases h
  symbol := fun h => by cases h
  whiteSpace := fun h => by cases h

theorem endsBefore_ofFault (fault : Fault) (span : Span) (rest : List Token) :
    (ofFault fault span "").EndsBefore rest := by
  constructor <;> intro h <;> cases h

/-- Every token of a source is well formed and goes on as far as it can. -/
theorem munched_tokenize (mode : Mode) (source : String) :
    (∀ t ∈ tokenize mode source, t.WellFormed) ∧
      ∀ front t rest, tokenize mode source = front ++ t :: rest → t.EndsBefore rest := by
  obtain ⟨ps, hps, rfl⟩ := Piece.exists_join_eq mode source
  rw [Piece.tokenize_join hps]
  have hplaces (front : List Token) (t : Token) (rest : List Token)
      (htokens : Piece.tokens .start ps = front ++ t :: rest) :
      t.WellFormed ∧ t.EndsBefore rest := by
    cases Piece.stands_of_tokens_eq htokens with
    | fault => exact ⟨wellFormed_ofFault _ _, endsBefore_ofFault _ _ _⟩
    | token =>
      have hpieces := (hps.of_append mode.blank_mem_rules).2
      exact ⟨hpieces.wellFormed _, hpieces.endsBefore _ _⟩
  refine ⟨fun t ht => ?_, fun front t rest htokens => (hplaces front t rest htokens).2⟩
  obtain ⟨front, rest, htokens⟩ := List.append_of_mem ht
  exact (hplaces front t rest htokens).1

end Token

end Scriptlet
