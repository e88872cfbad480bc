/-
Scriptlet.Token.Basic — tokens: what kind of thing was read, where it stands,
its text, and the value decoded from it. Faults of the text are tokens too, of
kind `error`, so that a reader of the token stream misses nothing.
-/
import Scriptlet.Source.Span

namespace Scriptlet

/-- What kind of thing a token is. -/
inductive Kind where
  | whiteSpace
  | comment
  | paren
  | operator
  | symbol
  | stringLiteral
  | numberLiteral
  | error
deriving DecidableEq

/-- The family of a bracket. -/
inductive Bracket where
  | round
  | square
  | curly
deriving DecidableEq

/-- Whether a bracket opens or closes. -/
inductive Side where
  | opening
  | closing
deriving DecidableEq

/-- The operators, one character each. -/
inductive Operator where
  | memberAccess
  | assignment
  | separator
  | endStatement
deriving DecidableEq

/-- What can be wrong with a piece of source text. The first two are found by
a rule that knew what it was reading, the last where no rule applies. -/
inductive Fault where
  | missingEndQuote
  | missingEndComment
  | unknownToken
deriving DecidableEq

/-- The value decoded from a token's text. Numbers hold what fits into 64 bits. -/
inductive Value where
  | paren (bracket : Bracket) (side : Side)
  | operator (operator : Operator)
  | symbol (name : String)
  | string (content : String)
  | number (amount : UInt64)
  | fault (fault : Fault)
deriving DecidableEq

/-- A token. -/
structure Token where
  kind : Kind
  span : Span
  text : String
  value : Option Value
deriving DecidableEq

/-- Blanks and comments, which carry no meaning for the grammar. -/
def Kind.isTrivia : Kind → Bool
  | .whiteSpace | .comment => true
  | _ => false

namespace Token

/-- A token that reports a fault. Its text is empty if the characters belong
to the token behind it, which covers the same span. -/
def ofFault (fault : Fault) (span : Span) (text : String) : Token :=
  ⟨.error, span, text, some (.fault fault)⟩

/-- Whether two tokens are of one kind and stand in one place. Text and value
are not compared: within one reading of a source they follow. -/
def samePlace (a b : Token) : Bool :=
  a.kind == b.kind && a.span == b.span

/-- Whether the grammar sees the token: it is neither trivia nor a fault. -/
def isSignificant (t : Token) : Bool :=
  !t.kind.isTrivia && t.kind != .error

/-! ## Reading the value -/

/-- The fault that the token reports. -/
def fault? (t : Token) : Option Fault :=
  match t.value with
  | some (.fault f) => some f
  | _ => none

/-- The operator that the token stands for. -/
def operator? (t : Token) : Option Operator :=
  match t.value with
  | some (.operator o) => some o
  | _ => none

/-- The bracket that the token stands for. -/
def paren? (t : Token) : Option (Bracket × Side) :=
  match t.value with
  | some (.paren b s) => some (b, s)
  | _ => none

/-- The name that the token stands for. -/
def symbolName? (t : Token) : Option String :=
  match t.value with
  | some (.symbol name) => some name
  | _ => none

/-- Whether the token names an external variable: its name starts with a dollar
sign. -/
def isExternal (t : Token) : Bool :=
  t.symbolName?.any fun name => name.toList.head? == some '$'

/-- Whether the token stands for the given operator. -/
def isOperator (o : Operator) (t : Token) : Bool :=
  t.operator? == some o

/-- Whether the token stands for the given bracket. -/
def isParen (b : Bracket) (s : Side) (t : Token) : Bool :=
  t.paren? == some (b, s)

end Token

end Scriptlet
