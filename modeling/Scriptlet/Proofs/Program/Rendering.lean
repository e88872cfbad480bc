/-
Scriptlet.Proofs.Program.Rendering — writing a source anew.

`Program.rendering` writes down what the grammar sees of a source, with a space between
each two items and nothing else: no comment, no fault, and no string left open.
`Program.rendering_reads_back` says that nothing the grammar sees gets lost on the way.
What is written is read again (`Item.map_content_tokenize`), and whatever a rule reads
of a source can be written (`Rule.Cuts.isItem`), a string that its line ends not
less than one that its quote ends.
-/
import Scriptlet.Proofs.Piece.Faults
import Scriptlet.Proofs.Piece.Item
import Scriptlet.Proofs.Program.LineFeed

namespace Scriptlet

open Text

/-! ## What the grammar sees of some tokens -/

/-- Whether the grammar sees tokens of this kind. -/
def Kind.isSignificant (kind : Kind) : Bool :=
  !kind.isTrivia && kind != .error

theorem map_content_significant (tokens : List Token) :
    (significant tokens).map Token.content
      = (tokens.map Token.content).filter (·.1.isSignificant) := by
  rw [List.filter_map]
  rfl

theorem Token.filterMap_terminal?_significant (tokens : List Token) :
    tokens.filterMap terminal? = ((significant tokens).map content).filterMap terminalOf? := by
  rw [significant, List.filterMap_map, List.filterMap_filter]
  congr 1
  funext t
  obtain ⟨kind, span, text, value⟩ := t
  cases kind <;> rfl

/-- The spaces between items are not significant. -/
theorem Item.filter_intersperse (items : List Item) :
    ((items.map content).intersperse (.whiteSpace, none)).filter (·.1.isSignificant)
      = items.map content := by
  have hitem (i : Item) : i.content.1.isSignificant = true := by cases i <;> rfl
  have hspace : Kind.whiteSpace.isSignificant = false := rfl
  induction items with
  | nil => rfl
  | cons i items ih =>
    cases items with
    | nil => simp [hitem]
    | cons j items => simpa [hitem, hspace] using ih

/-! ## The items of a source -/

/-- The item that a token is. A string is written with the quote that its own text begins
with. -/
def Token.item? (t : Token) : Option Item :=
  match t.value with
  | some (.paren bracket side) => some (.paren bracket side)
  | some (.operator o) => some (.operator o)
  | some (.number amount) => some (.number amount)
  | some (.symbol name) => some (.symbol name)
  | some (.string content) => t.text.toList.head?.map (.string · content)
  | some (.fault _) | none => none

/-- The token is an item that can be written. -/
def Token.IsItem (t : Token) : Prop :=
  ∃ i, t.item? = some i ∧ i.isWritable = true ∧ i.content = t.content

theorem Item.isWritable_string {quote : Char} {content text : List Char}
    (is : Rule.isQuote quote = true) (body : Run (Rule.insideString quote) content text) :
    isWritable (.string quote (String.ofList content)) = true := by
  obtain ⟨hquote, hlineFeed⟩ := Rule.not_mem_of_run body
  simp [isWritable, is, hquote, hlineFeed]

/-- Whatever a rule reads is trivia or an item that can be written. -/
theorem Rule.Cuts.isItem {r : Rule} {p : Piece} {text : List Char} (h : r.Cuts p text)
    (pos : Position) (hsignificant : (p.tokenAt pos).isSignificant = true) :
    (p.tokenAt pos).IsItem := by
  cases h with
  | blank | lineComment | lastLineComment | blockComment | openComment => cases hsignificant
  | @paren x bracket side => exact ⟨.paren bracket side, rfl, rfl, rfl⟩
  | @operator x o => exact ⟨.operator o, rfl, rfl, rfl⟩
  | @number digits => exact ⟨.number (amountOf digits), rfl, rfl, rfl⟩
  | @symbol x others _ starts continues =>
    have hcontinues := List.all_eq_true.2 continues.all
    refine ⟨.symbol (String.ofList (x :: others)), rfl, ?_, rfl⟩
    simp only [Item.isWritable, String.toList_ofList, List.head?_cons, Option.any_some,
      List.tail_cons, starts, hcontinues, Bool.and_self]
  | @string quote content _ is body =>
    refine ⟨.string quote (String.ofList content), ?_, Item.isWritable_string is body, rfl⟩
    simp [Token.item?, Piece.tokenAt]
  | @openString quote content _ is body =>
    refine ⟨.string quote (String.ofList content), ?_, Item.isWritable_string is body, rfl⟩
    simp [Token.item?, Piece.tokenAt]

theorem Token.isItem_of_mem {source : String} {t : Token}
    (ht : t ∈ significant (tokenize .breakout source)) : t.IsItem := by
  obtain ⟨ht, hsignificant⟩ := List.mem_filter.1 ht
  obtain ⟨ps, hps, rfl⟩ := Piece.exists_join_eq .breakout source
  rw [Piece.tokenize_join hps] at ht
  obtain ⟨front, rest, htokens⟩ := List.append_of_mem ht
  have hstands := Piece.stands_of_tokens_eq htokens
  cases hstands with
  | fault => cases hsignificant
  | @token qs rs p here is =>
    have hpieces := (hps.of_append Mode.breakout.blank_mem_rules).2
    rcases hpieces.cuts_or_skips with ⟨r, hcuts⟩ | ⟨run, rfl, -⟩
    · exact hcuts.isItem here hsignificant
    · cases hsignificant

section Items

variable {tokens : List Token} (h : ∀ t ∈ tokens, t.IsItem)
include h

theorem isWritable_of_mem_items : ∀ i ∈ tokens.filterMap Token.item?, i.isWritable = true := by
  intro i hi
  obtain ⟨t, ht, hitem⟩ := List.mem_filterMap.1 hi
  obtain ⟨j, hj, hwritable, -⟩ := h t ht
  cases hj.symm.trans hitem
  exact hwritable

/-- No token is lost where each is an item. -/
theorem map_content_items :
    (tokens.filterMap Token.item?).map Item.content = tokens.map Token.content := by
  induction tokens with
  | nil => rfl
  | cons t tokens ih =>
    obtain ⟨i, hi, -, hcontent⟩ := h t List.mem_cons_self
    have ih := ih fun t' ht' => h t' (List.mem_cons_of_mem t ht')
    rw [List.filterMap_cons_some hi, List.map_cons, List.map_cons, hcontent, ih]

end Items

namespace Program

/-- What the grammar sees of the source, written with a space between each two items. -/
def rendering (source : String) : String :=
  Item.render ((significant (tokenize .breakout source)).filterMap Token.item?)

/-- Items that can be written are read again, and with a source its rendering is read: what
the grammar sees of both is the same, and so is its answer. -/
theorem rendering_reads_back (items : List Item) (h : ∀ i ∈ items, i.isWritable = true)
    (source : String) :
    (tokenize .breakout (Item.render items)).map Token.content
        = (items.map Item.content).intersperse (.whiteSpace, none) ∧
      (significant (tokenize .breakout (rendering source))).map Token.content
        = (significant (tokenize .breakout source)).map Token.content ∧
      isWellFormed (rendering source) = isWellFormed source := by
  have hitems : ∀ t ∈ significant (tokenize .breakout source), t.IsItem :=
    fun _ => Token.isItem_of_mem
  have hcontent : (significant (tokenize .breakout (rendering source))).map Token.content
      = (significant (tokenize .breakout source)).map Token.content := by
    rw [map_content_significant, rendering,
      Item.map_content_tokenize (isWritable_of_mem_items hitems), Item.filter_intersperse,
      map_content_items hitems]
  refine ⟨Item.map_content_tokenize h, hcontent, ?_⟩
  rw [Bool.eq_iff_iff, isWellFormed_iff_derives, isWellFormed_iff_derives,
    Token.filterMap_terminal?_significant, hcontent, ← Token.filterMap_terminal?_significant]

/-- A string that holds the other quote and the mark of a comment and stands beside the
largest number, and a source with an open string before a comment. -/
theorem rendering_reads_back_open_string :
    Item.render [.symbol "$a", .string '\x27' "// \x22", .number 18446744073709551615]
        = "$a '// \x22' 18446744073709551615" ∧
      (tokenize .breakout "$a '// \x22' 18446744073709551615").map Token.content
        = [(.symbol, some (.symbol "$a")), (.whiteSpace, none),
          (.stringLiteral, some (.string "// \x22")), (.whiteSpace, none),
          (.numberLiteral, some (.number 18446744073709551615))] ∧
      rendering "x='a\n/* b" = "x = 'a'" ∧
      (significant (tokenize .breakout "x = 'a'")).map Token.content
        = (significant (tokenize .breakout "x='a\n/* b")).map Token.content ∧
      isWellFormed "x = 'a'" = isWellFormed "x='a\n/* b" := by
  have hrender :
      Item.render [.symbol "$a", .string '\x27' "// \x22", .number 18446744073709551615]
        = "$a '// \x22' 18446744073709551615" := by decide +kernel
  have hrendering : rendering "x='a\n/* b" = "x = 'a'" := by decide +kernel
  have h := rendering_reads_back
    [.symbol "$a", .string '\x27' "// \x22", .number 18446744073709551615] (by decide +kernel)
    "x='a\n/* b"
  rw [hrender, hrendering] at h
  exact ⟨hrender, h.1, hrendering, h.2⟩

end Program

end Scriptlet
