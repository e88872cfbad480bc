/-
Scriptlet.Token.Display — the names of kinds, values and faults, and the line
that describes a token: kind, span, and the value in brackets.
-/
import Scriptlet.Text.Quoted
import Scriptlet.Token.Basic

namespace Scriptlet

/-- The name of a kind. -/
def Kind.name : Kind → String
  | .whiteSpace => "WhiteSpace"
  | .comment => "Comment"
  | .paren => "Paren"
  | .operator => "Operator"
  | .symbol => "Symbol"
  | .stringLiteral => "StringLiteral"
  | .numberLiteral => "NumberLiteral"
  | .error => "Error"

/-- The name of a bracket's family. -/
def Bracket.name : Bracket → String
  | .round => "Round"
  | .square => "Square"
  | .curly => "Curly"

/-- The name of a bracket's side. -/
def Side.name : Side → String
  | .opening => "Open"
  | .closing => "Close"

/-- The name of an operator. -/
def Operator.name : Operator → String
  | .memberAccess => "MemberAccess"
  | .assignment => "Assignment"
  | .separator => "Separator"
  | .endStatement => "EndStatement"

namespace Fault

/-- The name of a fault. -/
def name : Fault → String
  | .missingEndQuote => "MissingEndQuote"
  | .missingEndComment => "MissingEndComment"
  | .unknownToken => "UnknownToken"

/-- The stable code of a fault, for readers of the output that sort by it. -/
def code : Fault → String
  | .missingEndQuote => "MISSING_END_QUOTE"
  | .missingEndComment => "MISSING_END_COMMENT"
  | .unknownToken => "UNKNOWN_TOKEN"

/-- What is wrong, as a sentence for people. -/
def message : Fault → String
  | .missingEndQuote => "string literal is missing its closing quote"
  | .missingEndComment => "block comment is missing its closing \x60*/\x60"
  | .unknownToken => "unrecognized input"

end Fault

/-- A value as it stands in a token's description: a string in its quoted
form, a name as it is. -/
def Value.display : Value → String
  | .paren b s => s!"{b.name}, {s.name}"
  | .operator o => o.name
  | .symbol name => name
  | .string content => Text.quoted content
  | .number n => toString n
  | .fault f => f.code

/-- The description of a token, as in `Symbol <L1C1-L1C3> (abc)`. -/
def Token.display (t : Token) : String :=
  match t.value with
  | none => s!"{t.kind.name} <{t.span}>"
  | some v => s!"{t.kind.name} <{t.span}> ({v.display})"

instance : ToString Token := ⟨Token.display⟩

end Scriptlet
