/-
Scriptlet.Grammar.Terminal — the letters of the grammar's alphabet. A
significant token is seen by the grammar as one of them; its text, place and
name play no part.
-/
import Scriptlet.Token.Basic

namespace Scriptlet

/-- What the grammar tells apart. -/
inductive Terminal where
  | symbol
  | string
  | number
  | operator (operator : Operator)
  | paren (bracket : Bracket) (side : Side)
deriving DecidableEq

namespace Terminal

/-- The point between a symbol and its member. -/
abbrev point : Terminal := .operator .memberAccess

/-- The sign between a symbol and what it is set to. -/
abbrev equals : Terminal := .operator .assignment

/-- The sign between two arguments. -/
abbrev comma : Terminal := .operator .separator

/-- The sign behind an expression. -/
abbrev semicolon : Terminal := .operator .endStatement

/-- The bracket before a list of arguments. -/
abbrev leftRound : Terminal := .paren .round .opening

/-- The bracket behind a list of arguments. -/
abbrev rightRound : Terminal := .paren .round .closing

end Terminal

/-- The letter that a token is to the grammar; trivia and faults are none. -/
def Token.terminal? (t : Token) : Option Terminal :=
  match t.kind with
  | .symbol => some .symbol
  | .stringLiteral => some .string
  | .numberLiteral => some .number
  | .operator => t.operator?.map .operator
  | .paren => t.paren?.map fun (bracket, side) => .paren bracket side
  | .whiteSpace | .comment | .error => none

/-- Whether a token is taken for the letter. Names and literals are told by their kind,
operators and brackets by what the token stands for. -/
def Token.isTerminal (x : Terminal) (t : Token) : Bool :=
  match x with
  | .symbol => t.kind == .symbol
  | .string => t.kind == .stringLiteral
  | .number => t.kind == .numberLiteral
  | .operator o => t.isOperator o
  | .paren b s => t.isParen b s

end Scriptlet
