/-
Scriptlet.Proofs.Rule.Cuts — what the rules make of a text, said without cursors.

`Rule.Cuts r p rest` says that the rule `r` cuts the piece `p` off a text if `rest`
lies behind it. Each rule has its constructors here, with the shape of the piece and
with what may follow: a run must stop, and a fault must have its cause. So the
relation can be carried from one text to another as long as the same may be said of
what follows.

* `Rule.opens` — how a text must begin for a rule to apply, and `Rule.Cuts.opens`: a
  piece begins like this;
* `Rule.Cuts.unique` — a text determines the piece that a rule cuts off;
* `Rule.Cuts.cut`, `Rule.Cuts.extend` — a piece stays what it is if the text ends
  earlier, or goes on, behind something that follows the piece;
* `Rule.Cuts.lineFeed` — what becomes of the last piece of a text if a line feed follows.
-/
import Scriptlet.Proofs.Piece.Basic
import Scriptlet.Rule.Basic

namespace Scriptlet

open Text

namespace Rule

/-! ## The body of a block comment -/

/-- The text is the rest of a block comment with its closing mark, beginning inside
`depth` further comments. A mark is read whole wherever it begins. -/
inductive Closes : Nat → List Char → Prop where
  | last : Closes 0 ['*', '/']
  | closing {depth : Nat} {text : List Char} (others : Closes depth text) :
      Closes (depth + 1) ('*' :: '/' :: text)
  | opening {depth : Nat} {text : List Char} (others : Closes (depth + 1) text) :
      Closes depth ('/' :: '*' :: text)
  | plain {depth : Nat} {x : Char} {text : List Char} (noOpening : x = '/' → text.head? ≠ some '*')
      (noClosing : x = '*' → text.head? ≠ some '/') (others : Closes depth text) :
      Closes depth (x :: text)

namespace Closes

variable {depth : Nat} {x : Char} {text text' rest rest' : List Char}

theorem of_opening (h : Closes depth ('/' :: '*' :: text)) : Closes (depth + 1) text := by
  cases h with
  | opening others => exact others
  | plain noOpening => exact absurd rfl (noOpening rfl)

theorem of_last (h : Closes 0 ('*' :: '/' :: text)) : text = [] := by
  cases h with
  | last => rfl
  | plain _ noClosing => exact absurd rfl (noClosing rfl)

theorem of_closing (h : Closes (depth + 1) ('*' :: '/' :: text)) : Closes depth text := by
  cases h with
  | closing others => exact others
  | plain _ noClosing => exact absurd rfl (noClosing rfl)

theorem of_plain (h : Closes depth (x :: text)) (noOpening : x = '/' → text.head? ≠ some '*')
    (noClosing : x = '*' → text.head? ≠ some '/') : Closes depth text := by
  cases h with
  | last => exact absurd rfl (noClosing rfl)
  | closing => exact absurd rfl (noClosing rfl)
  | opening => exact absurd rfl (noOpening rfl)
  | plain _ _ others => exact others

theorem exists_cons_cons (h : Closes depth text) : ∃ x y tail, text = x :: y :: tail := by
  induction h with
  | last => exact ⟨_, _, _, rfl⟩
  | closing => exact ⟨_, _, _, rfl⟩
  | opening => exact ⟨_, _, _, rfl⟩
  | plain _ _ _ ih =>
    obtain ⟨y, z, tail, rfl⟩ := ih
    exact ⟨_, _, _, rfl⟩

theorem head?_append (h : Closes depth text) (rest : List Char) :
    (text ++ rest).head? = text.head? := by
  obtain ⟨x, y, tail, rfl⟩ := h.exists_cons_cons
  rfl

theorem getLast?_eq (h : Closes depth text) : text.getLast? = some '/' := by
  induction h with
  | last => rfl
  | closing _ ih => simp [List.getLast?_cons, ih]
  | opening _ ih => simp [List.getLast?_cons, ih]
  | plain _ _ _ ih => simp [List.getLast?_cons, ih]

/-- A text has at most one beginning that closes the comment. -/
theorem unique (h : Closes depth text) (h' : Closes depth text')
    (heq : text ++ rest = text' ++ rest') : text = text' := by
  induction h generalizing text' with
  | last =>
    obtain ⟨x, y, tail, rfl⟩ := h'.exists_cons_cons
    simp only [List.cons_append, List.cons.injEq] at heq
    obtain ⟨rfl, rfl, -⟩ := heq
    rw [h'.of_last]
  | closing _ ih =>
    obtain ⟨x, y, tail, rfl⟩ := h'.exists_cons_cons
    simp only [List.cons_append, List.cons.injEq] at heq
    obtain ⟨rfl, rfl, htail⟩ := heq
    rw [ih h'.of_closing htail]
  | opening _ ih =>
    obtain ⟨x, y, tail, rfl⟩ := h'.exists_cons_cons
    simp only [List.cons_append, List.cons.injEq] at heq
    obtain ⟨rfl, rfl, htail⟩ := heq
    rw [ih h'.of_opening htail]
  | plain noOpening noClosing others ih =>
    obtain ⟨y, z, tail, rfl⟩ := others.exists_cons_cons
    obtain ⟨x', y', tail', rfl⟩ := h'.exists_cons_cons
    simp only [List.cons_append, List.cons.injEq] at heq
    obtain ⟨rfl, rfl, htail⟩ := heq
    rw [ih (h'.of_plain noOpening noClosing) (by simp [htail])]

end Closes

/-! ## Pieces -/

/-- The characters that a string goes on with. -/
def insideString (quote : Char) (x : Char) : Bool :=
  x != quote && x != '\n'

theorem ne_return_of_isQuote {quote : Char} (is : isQuote quote = true) : quote ≠ '\r' := by
  rintro rfl
  cases is

theorem firstLogical?_quote {quote : Char} (is : isQuote quote = true) (rest : List Char) :
    firstLogical? (quote :: rest) = some quote :=
  firstLogical?_cons rest (ne_return_of_isQuote is)

theorem forall_insideString_iff {quote : Char} {content : List Char} :
    (∀ x ∈ content, insideString quote x = true) ↔ quote ∉ content ∧ '\n' ∉ content := by
  simp only [insideString, Bool.and_eq_true, bne_iff_ne]
  constructor
  · intro h
    exact ⟨fun hquote => (h _ hquote).1 rfl, fun hlineFeed => (h _ hlineFeed).2 rfl⟩
  · rintro ⟨hquote, hlineFeed⟩ x hx
    exact ⟨fun heq => hquote (heq ▸ hx), fun heq => hlineFeed (heq ▸ hx)⟩

/-- A string holds neither its quote nor a line feed. -/
theorem not_mem_of_run {quote : Char} {content rest : List Char}
    (body : Run (insideString quote) content rest) : quote ∉ content ∧ '\n' ∉ content :=
  forall_insideString_iff.1 body.all

/-- A content that holds neither is ended by the quote behind it. -/
theorem run_of_not_mem {quote : Char} {content : List Char} (is : isQuote quote = true)
    (hquote : quote ∉ content) (hlineFeed : '\n' ∉ content) (rest : List Char) :
    Run (insideString quote) content (quote :: rest) := by
  refine ⟨forall_insideString_iff.2 ⟨hquote, hlineFeed⟩, fun x hx => ?_, fun _ => ?_⟩
  · rw [firstLogical?_quote is] at hx
    cases hx
    simp [insideString]
  · rintro ⟨⟩
    cases is

/-- What ends a string that its quote does not end is a line break. -/
theorem firstLogical?_of_never {quote : Char} {content rest : List Char}
    (body : Run (insideString quote) content rest) (never : firstLogical? rest ≠ some quote)
    (hne : rest ≠ []) : firstLogical? rest = some '\n' := by
  obtain ⟨x, hx⟩ := Option.ne_none_iff_exists'.1 (mt firstLogical?_eq_none_iff.1 hne)
  have hstop := body.stops x hx
  have hquote : x ≠ quote := by
    rintro rfl
    exact never hx
  have hlineFeed : x = '\n' := by simpa [insideString, hquote] using hstop
  rw [hx, hlineFeed]

theorem ne_return_of_startsSymbol {x : Char} (h : startsSymbol x = true) : x ≠ '\r' := by
  rintro rfl
  revert h
  decide +kernel

/-- The rule cuts the piece off a text if this lies behind it. -/
inductive Cuts : Rule → Piece → List Char → Prop where
  | blank {run rest : List Char} (nonempty : run ≠ []) (blanks : Run isBlank run rest) :
      Cuts .blank ⟨.whiteSpace, run, none, none⟩ rest
  | paren {x : Char} {bracket : Bracket} {side : Side} {rest : List Char}
      (is : Bracket.ofChar? x = some (bracket, side)) :
      Cuts .paren ⟨.paren, [x], some (.paren bracket side), none⟩ rest
  | operator {x : Char} {operator : Operator} {rest : List Char}
      (is : Operator.ofChar? x = some operator) :
      Cuts .operator ⟨.operator, [x], some (.operator operator), none⟩ rest
  | lineComment {line lineBreak rest : List Char}
      (breaks : IsLineBreak lineBreak)
      (body : Run (· != '\n') line (lineBreak ++ rest)) :
      Cuts .comment ⟨.comment, '/' :: '/' :: (line ++ lineBreak), none, none⟩ rest
  | lastLineComment {line : List Char} (body : Run (· != '\n') line []) :
      Cuts .comment ⟨.comment, '/' :: '/' :: line, none, none⟩ []
  | blockComment {body rest : List Char} (closes : Closes 0 body) :
      Cuts .comment ⟨.comment, '/' :: '*' :: body, none, none⟩ rest
  | openComment {body : List Char} (never : ∀ front, front <+: body → ¬Closes 0 front) :
      Cuts .comment ⟨.comment, '/' :: '*' :: body, none, some .missingEndComment⟩ []
  | string {quote : Char} {content rest : List Char} (is : isQuote quote = true)
      (body : Run (insideString quote) content (quote :: rest)) :
      Cuts .string ⟨.stringLiteral, quote :: (content ++ [quote]),
        some (.string (String.ofList content)), none⟩ rest
  | openString {quote : Char} {content rest : List Char} (is : isQuote quote = true)
      (body : Run (insideString quote) content rest) (never : firstLogical? rest ≠ some quote) :
      Cuts .string ⟨.stringLiteral, quote :: content, some (.string (String.ofList content)),
        some .missingEndQuote⟩ rest
  | number {digits rest : List Char} (nonempty : digits ≠ []) (run : Run Char.isDigit digits rest) :
      Cuts .number ⟨.numberLiteral, digits, some (.number (amountOf digits)), none⟩ rest
  | symbol {x : Char} {others rest : List Char} (starts : startsSymbol x = true)
      (continues : Run continuesSymbol others rest) :
      Cuts .symbol ⟨.symbol, x :: others, some (.symbol (String.ofList (x :: others))), none⟩ rest

/-! ## What a piece begins with -/

/-- The characters that a piece of the rule begins with. -/
def begins : Rule → Char → Bool
  | .blank => isBlank
  | .paren => fun x => (Bracket.ofChar? x).isSome
  | .operator => fun x => (Operator.ofChar? x).isSome
  | .comment => (· == '/')
  | .string => isQuote
  | .number => Char.isDigit
  | .symbol => startsSymbol

/-- The characters that make a comment of a slash before them. -/
def isCommentMark (x : Char) : Bool :=
  x == '/' || x == '*'

/-- The text begins as a piece of the rule does. -/
def opens (r : Rule) (text : List Char) : Bool :=
  text.head?.any r.begins && (r != .comment || text.tail.head?.any isCommentMark)

theorem opens_nil (r : Rule) : r.opens [] = false := rfl

theorem opens_eq {r : Rule} (hr : r ≠ .comment) (text : List Char) :
    r.opens text = text.head?.any r.begins := by
  simp [opens, hr]

theorem opens_append {r : Rule} {text : List Char} (rest : List Char) (h : r.opens text = true) :
    r.opens (text ++ rest) = true := by
  cases text with
  | nil => cases h
  | cons x text =>
    cases text with
    | nil => simp_all [opens]
    | cons y text => exact h

/-- A line feed does not make a text begin a piece, for it makes no comment of a slash. -/
theorem opens_lineFeed (r : Rule) {text : List Char} (hne : text ≠ []) (rest : List Char) :
    r.opens (text ++ '\n' :: rest) = r.opens text := by
  cases text with
  | nil => exact absurd rfl hne
  | cons x text =>
    cases text with
    | nil => simp [opens, isCommentMark]
    | cons y text => rfl

namespace Cuts

variable {r : Rule} {p p' : Piece} {rest rest' : List Char}

/-- A piece begins as the pieces of its rule do, whatever may follow. -/
theorem opens (h : r.Cuts p rest) : r.opens p.text = true := by
  cases h with
  | @blank run _ nonempty blanks =>
    obtain ⟨x, run, rfl⟩ := List.exists_cons_of_ne_nil nonempty
    simp [Rule.opens, begins, blanks.all x]
  | paren is => simp [Rule.opens, begins, is]
  | operator is => simp [Rule.opens, begins, is]
  | lineComment => rfl
  | lastLineComment => rfl
  | blockComment => rfl
  | openComment => rfl
  | string is => simp [Rule.opens, begins, is]
  | openString is => simp [Rule.opens, begins, is]
  | @number digits _ nonempty run =>
    obtain ⟨x, digits, rfl⟩ := List.exists_cons_of_ne_nil nonempty
    simp [Rule.opens, begins, run.all x]
  | symbol starts => simp [Rule.opens, begins, starts]

theorem text_ne_nil (h : r.Cuts p rest) : p.text ≠ [] := by
  intro hnil
  have hopens := h.opens
  rw [hnil, opens_nil] at hopens
  cases hopens

/-- A rule that cuts a piece off knows what it reads. -/
theorem known (h : r.Cuts p rest) : p.fault ≠ some .unknownToken := by
  cases h <;> simp

/-! ### A text determines its piece -/

theorem lineBreak_unique {lineBreak lineBreak' : List Char}
    (h : IsLineBreak lineBreak)
    (h' : IsLineBreak lineBreak')
    (heq : lineBreak ++ rest = lineBreak' ++ rest') : lineBreak = lineBreak' := by
  rcases h with rfl | rfl <;> rcases h' with rfl | rfl
  · rfl
  · simp at heq
  · simp at heq
  · rfl

/-- A line that a line break ends is not the last line of its text. -/
theorem not_lastLine {line line' lineBreak : List Char}
    (breaks : IsLineBreak lineBreak)
    (body : Run (· != '\n') line (lineBreak ++ rest)) (body' : Run (· != '\n') line' [])
    (heq : line ++ (lineBreak ++ rest) = line' ++ []) : False := by
  have hbreak := (body.unique body' heq).2
  rcases breaks with rfl | rfl <;> cases hbreak

/-- A string that its quote closes is not left open. -/
theorem not_openString {quote : Char} {content content' : List Char}
    (is : isQuote quote = true) (body : Run (insideString quote) content (quote :: rest))
    (body' : Run (insideString quote) content' rest') (never : firstLogical? rest' ≠ some quote)
    (heq : content ++ quote :: rest = content' ++ rest') : False := by
  obtain ⟨-, rfl⟩ := body.unique body' heq
  exact never (firstLogical?_quote is rest)

theorem unique (h : r.Cuts p rest) (h' : r.Cuts p' rest')
    (heq : p.text ++ rest = p'.text ++ rest') : p = p' := by
  -- The rule is fixed, so only comments and strings have more than one shape. The second
  -- character tells the comments apart, and what stops the run tells the rest apart.
  cases h with
  | blank _ blanks =>
    cases h' with
    | blank _ blanks' => rw [(blanks.unique blanks' heq).1]
  | paren is =>
    cases h' with
    | paren is' =>
      obtain rfl := (List.cons.inj heq).1
      cases is.symm.trans is'
      rfl
  | operator is =>
    cases h' with
    | operator is' =>
      obtain rfl := (List.cons.inj heq).1
      cases is.symm.trans is'
      rfl
  | lineComment breaks body =>
    simp only [List.cons_append, List.append_assoc] at heq
    cases h' with
    | lineComment breaks' body' =>
      simp only [List.cons_append, List.append_assoc, List.cons.injEq, true_and] at heq
      obtain ⟨rfl, hbreak⟩ := body.unique body' heq
      rw [lineBreak_unique breaks breaks' hbreak]
    | lastLineComment body' =>
      simp only [List.cons_append, List.cons.injEq, true_and] at heq
      exact (not_lastLine breaks body body' heq).elim
    | blockComment => simp at heq
    | openComment => simp at heq
  | lastLineComment body =>
    cases h' with
    | lineComment breaks' body' =>
      simp only [List.cons_append, List.append_assoc, List.cons.injEq, true_and] at heq
      exact (not_lastLine breaks' body' body heq.symm).elim
    | lastLineComment body' =>
      simp only [List.cons_append, List.cons.injEq, true_and] at heq
      rw [(body.unique body' heq).1]
    | blockComment => simp at heq
    | openComment => simp at heq
  | blockComment closes =>
    cases h' with
    | lineComment => simp at heq
    | lastLineComment => simp at heq
    | blockComment closes' =>
      simp only [List.cons_append, List.cons.injEq, true_and] at heq
      rw [closes.unique closes' heq]
    | openComment never =>
      simp only [List.cons_append, List.append_nil, List.cons.injEq, true_and] at heq
      exact absurd closes (never _ ⟨_, heq⟩)
  | openComment never =>
    cases h' with
    | lineComment => simp at heq
    | lastLineComment => simp at heq
    | blockComment closes' =>
      simp only [List.cons_append, List.append_nil, List.cons.injEq, true_and] at heq
      exact absurd closes' (never _ ⟨_, heq.symm⟩)
    | openComment never' =>
      simp only [List.append_nil, List.cons.injEq, true_and] at heq
      rw [heq]
  | string _ body =>
    cases h' with
    | string _ body' =>
      simp only [List.cons_append, List.append_assoc, List.nil_append, List.cons.injEq] at heq
      obtain ⟨rfl, heq⟩ := heq
      rw [(body.unique body' heq).1]
    | openString is' body' never' =>
      simp only [List.cons_append, List.append_assoc, List.nil_append, List.cons.injEq] at heq
      obtain ⟨rfl, heq⟩ := heq
      exact (not_openString is' body body' never' heq).elim
  | openString is body never =>
    cases h' with
    | string _ body' =>
      simp only [List.cons_append, List.append_assoc, List.nil_append, List.cons.injEq] at heq
      obtain ⟨rfl, heq⟩ := heq
      exact (not_openString is body' body never heq.symm).elim
    | openString _ body' =>
      simp only [List.cons_append, List.cons.injEq] at heq
      obtain ⟨rfl, heq⟩ := heq
      rw [(body.unique body' heq).1]
  | number _ run =>
    cases h' with
    | number _ run' => rw [(run.unique run' heq).1]
  | symbol _ continues =>
    cases h' with
    | symbol _ continues' =>
      simp only [List.cons_append, List.cons.injEq] at heq
      obtain ⟨rfl, heq⟩ := heq
      rw [(continues.unique continues' heq).1]

/-! ### Other text behind the piece -/

theorem getLast?_lineBreak {lineBreak : List Char}
    (h : IsLineBreak lineBreak) : lineBreak.getLast? ≠ some '\r' := by
  rcases h with rfl | rfl <;> simp

theorem unbroken (h : r.Cuts p rest) : Unbroken p.text rest := by
  cases h with
  | blank _ blanks => exact blanks.unbroken
  | paren is => exact unbroken_of_getLast? (by rintro ⟨⟩; cases is)
  | operator is => exact unbroken_of_getLast? (by rintro ⟨⟩; cases is)
  | lineComment breaks =>
    exact unbroken_of_getLast? (by rcases breaks with rfl | rfl <;> simp [List.getLast?_cons])
  | lastLineComment => exact unbroken_nil _
  | blockComment closes =>
    exact unbroken_of_getLast? (by simp [List.getLast?_cons, closes.getLast?_eq])
  | openComment => exact unbroken_nil _
  | string is =>
    exact unbroken_of_getLast? (by simpa [List.getLast?_cons] using ne_return_of_isQuote is)
  | openString is body => exact body.unbroken.cons (ne_return_of_isQuote is)
  | number _ run => exact run.unbroken
  | symbol starts continues => exact continues.unbroken.cons (ne_return_of_startsSymbol starts)

/-- A piece stays what it is if the text is cut off behind it. -/
theorem cut (h : r.Cuts p (rest ++ rest')) (hcut : Unbroken rest rest') : r.Cuts p rest := by
  generalize hfull : rest ++ rest' = full at h
  cases h with
  | blank nonempty blanks => exact .blank nonempty (Run.cut (hfull ▸ blanks) hcut)
  | paren is => exact .paren is
  | operator is => exact .operator is
  | lineComment breaks body =>
    -- The run stops at the line break, which is in the piece and is not cut off.
    rw [← hfull, ← List.append_assoc] at body
    exact .lineComment breaks (body.cut (hcut.prepend (getLast?_lineBreak breaks)))
  | lastLineComment body =>
    obtain ⟨rfl, -⟩ := List.append_eq_nil_iff.1 hfull
    exact .lastLineComment body
  | blockComment closes => exact .blockComment closes
  | openComment never =>
    obtain ⟨rfl, -⟩ := List.append_eq_nil_iff.1 hfull
    exact .openComment never
  | string is body =>
    rw [← hfull, ← List.cons_append] at body
    exact .string is (body.cut (hcut.cons (ne_return_of_isQuote is)))
  | openString is body never =>
    subst hfull
    refine .openString is (body.cut hcut) fun hquote => never ?_
    cases rest with
    | nil => cases hquote
    | cons x rest => rw [firstLogical?_append (by simp) hcut, hquote]
  | number nonempty run => exact .number nonempty (Run.cut (hfull ▸ run) hcut)
  | symbol starts continues => exact .symbol starts (Run.cut (hfull ▸ continues) hcut)

/-- What ends a line goes on ending it. -/
theorem run_extend_lineBreak {line lineBreak : List Char}
    (body : Run (· != '\n') line (lineBreak ++ rest))
    (breaks : IsLineBreak lineBreak) (hcut : Unbroken rest rest') :
    Run (· != '\n') line (lineBreak ++ (rest ++ rest')) := by
  have hne : lineBreak ++ rest ≠ [] := by rcases breaks with rfl | rfl <;> simp
  rw [← List.append_assoc]
  exact body.extend hne (hcut.prepend (getLast?_lineBreak breaks))

theorem run_extend_quote {quote : Char} {content : List Char}
    (body : Run (insideString quote) content (quote :: rest)) (is : isQuote quote = true)
    (hcut : Unbroken rest rest') : Run (insideString quote) content (quote :: (rest ++ rest')) :=
  body.extend (by simp) (hcut.cons (ne_return_of_isQuote is))

/-- A piece that something follows stays what it is if the text is continued. -/
theorem extend (h : r.Cuts p rest) (hne : rest ≠ []) (hcut : Unbroken rest rest') :
    r.Cuts p (rest ++ rest') := by
  cases h with
  | blank nonempty blanks => exact .blank nonempty (blanks.extend hne hcut)
  | paren is => exact .paren is
  | operator is => exact .operator is
  | lineComment breaks body => exact .lineComment breaks (run_extend_lineBreak body breaks hcut)
  | lastLineComment => exact absurd rfl hne
  | blockComment closes => exact .blockComment closes
  | openComment => exact absurd rfl hne
  | string is body => exact .string is (run_extend_quote body is hcut)
  | openString is body never =>
    refine .openString is (body.extend hne hcut) ?_
    rw [firstLogical?_append hne hcut]
    exact never
  | number nonempty run => exact .number nonempty (run.extend hne hcut)
  | symbol starts continues => exact .symbol starts (continues.extend hne hcut)

theorem getLast?_ne_of_cons {x : Char} {text : List Char}
    (h : (x :: text).getLast? ≠ some '\r') : text.getLast? ≠ some '\r' := by
  intro hlast
  rw [List.getLast?_cons, hlast] at h
  exact h rfl

/-- A line feed behind the last piece of a text goes on with it if it is white space,
ends it if it is a line comment, and leaves it alone otherwise. -/
theorem lineFeed (h : r.Cuts p []) (hlast : p.text.getLast? ≠ some '\r')
    (hclosed : p.fault ≠ some .missingEndComment) (rest : List Char) :
    r = .blank ∨ r.Cuts { p with text := p.text ++ ['\n'] } rest ∨ r.Cuts p ('\n' :: rest) := by
  cases h with
  | blank => exact .inl rfl
  | paren is => exact .inr (.inr (.paren is))
  | operator is => exact .inr (.inr (.operator is))
  | lineComment breaks body =>
    exact .inr (.inr (.lineComment breaks (run_extend_lineBreak body breaks (by simp [Unbroken]))))
  | lastLineComment body =>
    have hline := getLast?_ne_of_cons (getLast?_ne_of_cons hlast)
    exact .inr (.inl (.lineComment (.inl rfl) (body.lineFeed (by decide) hline rest)))
  | blockComment closes => exact .inr (.inr (.blockComment closes))
  | openComment => exact absurd rfl hclosed
  | string is body =>
    exact .inr (.inr (.string is (run_extend_quote body is (by simp [Unbroken]))))
  | openString is body never =>
    refine .inr (.inr (.openString is (body.lineFeed ?_ (getLast?_ne_of_cons hlast) rest) ?_))
    · simp [insideString]
    · rw [firstLogical?_cons rest (by decide)]
      rintro ⟨⟩
      cases is
  | number nonempty run =>
    exact .inr (.inr (.number nonempty (run.lineFeed (by decide) hlast rest)))
  | symbol starts continues =>
    have hothers := getLast?_ne_of_cons hlast
    exact .inr (.inr (.symbol starts (continues.lineFeed (by decide +kernel) hothers rest)))

end Cuts

end Rule

end Scriptlet
