/-
Scriptlet.Grammar.Derivation — the grammar of programs, as a relation between
what a word may be and the word:

    program     := statement*
    statement   := expression ';'?
    expression  := assignment | invocation
    assignment  := SYMBOL '=' expression
    invocation  := operand arguments*
    operand     := memberChain | STRING | NUMBER
    memberChain := SYMBOL ('.' SYMBOL)*
    arguments   := '(' (expression (',' expression)*)? ')'

The relation says which words there are and nothing about how to find out.
-/
import Scriptlet.Grammar.Terminal

namespace Scriptlet

/-- What a word may be. -/
inductive Nonterminal where
  | program
  | statement
  | expression
  | assignment
  | invocation
  | operand
  | memberChain
  | arguments
deriving DecidableEq

/-- Which words each nonterminal stands for. A starred part is a list of words
that follow one another. -/
inductive Derives : Nonterminal → List Terminal → Prop where
  | program {statements : List (List Terminal)}
      (each : ∀ word ∈ statements, Derives .statement word) :
      Derives .program statements.flatten
  | bareStatement {word : List Terminal} (expression : Derives .expression word) :
      Derives .statement word
  | endedStatement {word : List Terminal} (expression : Derives .expression word) :
      Derives .statement (word ++ [.semicolon])
  | ofAssignment {word : List Terminal} (assignment : Derives .assignment word) :
      Derives .expression word
  | ofInvocation {word : List Terminal} (invocation : Derives .invocation word) :
      Derives .expression word
  | assignment {word : List Terminal} (expression : Derives .expression word) :
      Derives .assignment (.symbol :: .equals :: word)
  | invocation {operand : List Terminal} {calls : List (List Terminal)}
      (callee : Derives .operand operand) (each : ∀ word ∈ calls, Derives .arguments word) :
      Derives .invocation (operand ++ calls.flatten)
  | ofMemberChain {word : List Terminal} (chain : Derives .memberChain word) :
      Derives .operand word
  | string : Derives .operand [.string]
  | number : Derives .operand [.number]
  | memberChain (members : Nat) :
      Derives .memberChain
        (.symbol :: (List.replicate members [.point, .symbol]).flatten)
  | noArguments : Derives .arguments [.leftRound, .rightRound]
  | someArguments {first : List Terminal} {others : List (List Terminal)}
      (expression : Derives .expression first)
      (each : ∀ word ∈ others, Derives .expression word) :
      Derives .arguments
        (.leftRound :: first ++ (others.map (.comma :: ·)).flatten ++ [.rightRound])

end Scriptlet
