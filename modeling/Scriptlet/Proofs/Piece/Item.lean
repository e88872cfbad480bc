/-
Scriptlet.Proofs.Piece.Item — writing down what the grammar sees.

An `Item` is a bracket, an operator, a number, a symbol or a string, without a place. It
is written as one text (`Item.written`), and `Item.render` writes several with a space
between each two. The spaces are all that keeps them apart: what follows an item is the
end or a space, and neither goes on with it (`Item.cuts`). So the pieces of what is
rendered are the items and the spaces (`Item.lexed_pieces`), if each item is one that can
be written: `Item.isWritable` asks for the form of a symbol, and for strings without
their quote and without a line feed.
-/
import Scriptlet.Proofs.Piece.Reading
import Scriptlet.Proofs.Piece.LineFeed
import Scriptlet.Proofs.Rule.Beginnings
import Scriptlet.Proofs.Rule.Decimal

namespace Scriptlet

open Text

/-- The kind and the value of a token. -/
def Token.content (t : Token) : Kind × Option Value :=
  (t.kind, t.value)

/-! ## Items -/

/-- The character that a bracket is written as. -/
def Bracket.char : Bracket → Side → Char
  | .round, .opening => '('
  | .round, .closing => ')'
  | .square, .opening => '['
  | .square, .closing => ']'
  | .curly, .opening => '\x7b'
  | .curly, .closing => '\x7d'

theorem Bracket.ofChar?_char (bracket : Bracket) (side : Side) :
    ofChar? (bracket.char side) = some (bracket, side) := by
  cases bracket <;> cases side <;> rfl

theorem Bracket.eq_char {x : Char} {bracket : Bracket} {side : Side}
    (h : ofChar? x = some (bracket, side)) : x = bracket.char side := by
  unfold ofChar? at h
  split at h <;> cases h <;> rfl

/-- The character that an operator is written as. -/
def Operator.char : Operator → Char
  | .memberAccess => '.'
  | .assignment => '='
  | .separator => ','
  | .endStatement => ';'

theorem Operator.ofChar?_char (operator : Operator) : ofChar? operator.char = some operator := by
  cases operator <;> rfl

theorem Operator.eq_char {x : Char} {operator : Operator} (h : ofChar? x = some operator) :
    x = operator.char := by
  unfold ofChar? at h
  split at h <;> cases h <;> rfl

/-- What the grammar sees of a token and what its value says, with the quote of a string. -/
inductive Item where
  | paren (bracket : Bracket) (side : Side)
  | operator (operator : Operator)
  | number (amount : UInt64)
  | symbol (name : String)
  | string (quote : Char) (content : String)
deriving DecidableEq

namespace Item

/-- The rule that reads the item. -/
def rule : Item → Rule
  | .paren .. => .paren
  | .operator _ => .operator
  | .number _ => .number
  | .symbol _ => .symbol
  | .string .. => .string

/-- The kind of the item's token. -/
def kind : Item → Kind
  | .paren .. => .paren
  | .operator _ => .operator
  | .number _ => .numberLiteral
  | .symbol _ => .symbol
  | .string .. => .stringLiteral

/-- The value of the item's token. -/
def value : Item → Value
  | .paren bracket side => .paren bracket side
  | .operator o => .operator o
  | .number amount => .number amount
  | .symbol name => .symbol name
  | .string _ content => .string content

/-- The text of the item: a number in decimal, a string between its quotes. -/
def written : Item → List Char
  | .paren bracket side => [bracket.char side]
  | .operator o => [o.char]
  | .number amount => Nat.toDigits 10 amount.toNat
  | .symbol name => name.toList
  | .string quote content => quote :: (content.toList ++ [quote])

/-- Whether the item can be written: a symbol must have the form of one, and a string
cannot hold its own quote or a line feed. -/
def isWritable : Item → Bool
  | .symbol name => name.toList.head?.any Rule.startsSymbol &&
      name.toList.tail.all Rule.continuesSymbol
  | .string quote content => Rule.isQuote quote && !content.toList.contains quote &&
      !content.toList.contains '\n'
  | _ => true

/-- The kind and the value of the item's token. -/
def content (i : Item) : Kind × Option Value :=
  (i.kind, some i.value)

/-- The items one after the other, with a space between each two. -/
def render (items : List Item) : String :=
  String.ofList ([' '].intercalate (items.map written))

/-! ## The pieces of what is written -/

/-- The item as a piece. -/
def piece (i : Item) : Piece :=
  ⟨i.kind, i.written, some i.value, none⟩

/-- The items as pieces, with the spaces between them. -/
def pieces (items : List Item) : List Piece :=
  (items.map piece).intersperse ⟨.whiteSpace, [' '], none, none⟩

theorem pieces_cons_cons (i j : Item) (items : List Item) :
    pieces (i :: j :: items)
      = i.piece :: ⟨.whiteSpace, [' '], none, none⟩ :: pieces (j :: items) :=
  List.intersperse_cons_cons

theorem render_eq (items : List Item) :
    render items = String.ofList (Piece.join (pieces items)) := by
  rw [render]
  congr 1
  induction items with
  | nil => rfl
  | cons i items ih =>
    cases items with
    | nil => rfl
    | cons j items =>
      rw [List.map_cons, List.map_cons, List.intercalate_cons_cons, ← List.map_cons, ih,
        pieces_cons_cons, Piece.join_cons, Piece.join_cons, List.append_assoc]
      rfl

/-- Nothing follows, or a space does. -/
def Parted (rest : List Char) : Prop :=
  ∀ x ∈ rest.head?, x = ' '

variable {rest : List Char} {i : Item} {items : List Item}

theorem Parted.run {test : Char → Bool} {run : List Char} (h : Parted rest)
    (hrun : ∀ x ∈ run, test x = true) (hspace : test ' ' = false) : Run test run rest := by
  cases rest with
  | nil => exact ⟨hrun, by simp [firstLogical?], unbroken_nil run⟩
  | cons y rest =>
    obtain rfl : y = ' ' := h y rfl
    refine ⟨hrun, fun x hx => ?_, by simp [Unbroken]⟩
    rw [firstLogical?_cons rest (by decide)] at hx
    cases hx
    exact hspace

/-- An item is cut off where it ends, if a space is behind it. -/
theorem cuts (h : i.isWritable = true) (hrest : Parted rest) : i.rule.Cuts i.piece rest := by
  cases i with
  | paren bracket side => exact .paren (bracket.ofChar?_char side)
  | operator o => exact .operator o.ofChar?_char
  | number amount =>
    have hdigits : Run Char.isDigit (Nat.toDigits 10 amount.toNat) rest :=
      hrest.run (fun x hx => Nat.isDigit_of_mem_toDigits (by decide) (by decide) hx) (by decide)
    have hcuts := Rule.Cuts.number Nat.toDigits_ne_nil hdigits
    rw [Rule.amountOf_toDigits] at hcuts
    exact hcuts
  | symbol name =>
    simp only [isWritable, Bool.and_eq_true] at h
    obtain ⟨hstarts, hcontinues⟩ := h
    cases htext : name.toList with
    | nil =>
      rw [htext] at hstarts
      cases hstarts
    | cons x others =>
      rw [htext, List.head?_cons, Option.any_some] at hstarts
      rw [htext, List.tail_cons] at hcontinues
      have hothers := hrest.run (List.all_eq_true.1 hcontinues) (by decide +kernel)
      have hcuts := Rule.Cuts.symbol hstarts hothers
      rw [← htext, String.ofList_toList] at hcuts
      exact hcuts
  | string quote content =>
    simp only [isWritable, Bool.and_eq_true, Bool.not_eq_true', List.contains_eq_mem,
      decide_eq_false_iff_not] at h
    obtain ⟨⟨is, hquote⟩, hlineFeed⟩ := h
    have hcuts := Rule.Cuts.string is (Rule.run_of_not_mem is hquote hlineFeed rest)
    rw [String.ofList_toList] at hcuts
    exact hcuts

theorem opens_join (h : i.isWritable = true) (items : List Item) :
    i.rule.opens (Piece.join (pieces (i :: items))) = true := by
  have hopens (rest : List Char) : i.rule.opens (i.written ++ rest) = true :=
    Rule.opens_append rest (@cuts [] i h (by simp [Parted])).opens
  cases items with
  | nil => exact hopens []
  | cons j items =>
    rw [pieces_cons_cons, Piece.join_cons]
    exact hopens _

/-- The pieces of what is rendered are the items and the spaces. -/
theorem lexed_pieces (h : ∀ i ∈ items, i.isWritable = true) :
    Piece.Lexed Mode.breakout.rules (pieces items) := by
  induction items with
  | nil => exact .nil
  | cons i items ih =>
    have hi := h i List.mem_cons_self
    have ih := ih fun j hj => h j (List.mem_cons_of_mem i hj)
    cases items with
    | nil => exact .cut ((cuts hi (by simp [Parted])).firstCuts (Rule.mem_breakout _)) .nil
    | cons j items =>
      have hj := h j (List.mem_cons_of_mem i List.mem_cons_self)
      have hblank : Rule.opens .blank (Piece.join (pieces (j :: items))) = false := by
        by_contra hblank
        rw [Bool.not_eq_false] at hblank
        have hrule := Rule.opens_unique (opens_join hj items) hblank
        cases j <;> cases hrule
      have hspace : ∀ x ∈ [' '], isBlank x = true := by
        intro x hx
        rw [List.mem_singleton.1 hx]
        rfl
      have hrun := Rule.run_of_not_opens hspace (by simp) hblank
      rw [pieces_cons_cons]
      refine .cut ((cuts hi ?_).firstCuts (Rule.mem_breakout _)) ?_
      · simp [Parted]
      · exact .cut (Rule.firstCuts_blank (by simp) hrun) ih

/-! ## The tokens of what is written -/

theorem map_content_tokens (pos : Position) (items : List Item) :
    (Piece.tokens pos (pieces items)).map Token.content
      = (items.map content).intersperse (.whiteSpace, none) := by
  induction items generalizing pos with
  | nil => rfl
  | cons i items ih =>
    cases items with
    | nil => rfl
    | cons j items =>
      rw [pieces_cons_cons, Piece.tokens, Piece.tokens, List.map_append, List.map_append, ih]
      rfl

/-- Items that can be written are read again, with white space between each two. -/
theorem map_content_tokenize (h : ∀ i ∈ items, i.isWritable = true) :
    (tokenize .breakout (render items)).map Token.content
      = (items.map content).intersperse (.whiteSpace, none) := by
  rw [render_eq, Piece.tokenize_join (lexed_pieces h), map_content_tokens]

end Item

end Scriptlet
