/-
Scriptlet.Recognition.Pattern — how a program is looked for: patterns, which
are tried on a token stream in a fixed order, and the patterns of the phrases
that a program consists of.

A phrase may be looked for inside itself. `Pattern.guarded` is the condition
under which such a search ends all the same: between two attempts at phrases of
the same rank something has been read. `Phrase.pattern_guarded` says that the
patterns below meet it.
-/
import Scriptlet.Grammar.Terminal

namespace Scriptlet

/-- The phrases that a program consists of. -/
inductive Phrase where
  | program
  | expression
  | assignment
  | invocation
  | operand
  | memberChain
  | memberAccess
  | arguments
  | argumentList
deriving DecidableEq

/-- What is looked for in a token stream, and what to do about a failure. -/
inductive Pattern where
  /-- Nothing, which is found everywhere. -/
  | nothing
  /-- The end of the stream. -/
  | ended
  /-- One terminal. -/
  | terminal (x : Terminal)
  /-- One pattern and then another. -/
  | sequence (first second : Pattern)
  /-- One pattern or, where it fails, another from there on. -/
  | choice (first second : Pattern)
  /-- A pattern as often as it is found, which may be never. -/
  | many (body : Pattern)
  /-- A pattern that takes back what it has read where it fails. -/
  | attempt (body : Pattern)
  /-- The pattern of a phrase. -/
  | phrase (name : Phrase)
deriving DecidableEq

namespace Phrase

/-- The pattern of a phrase. An assignment is tried before an invocation, for
only the sign behind its symbol tells the two apart; each of the three phrases
that begin like something shorter is an attempt. -/
def pattern : Phrase → Pattern
  | .program =>
    .choice .ended
      (.sequence (.phrase .expression)
        (.sequence (.choice (.terminal .semicolon) .nothing) (.phrase .program)))
  | .expression => .choice (.phrase .assignment) (.phrase .invocation)
  | .assignment =>
    .attempt
      (.sequence (.terminal .symbol)
        (.sequence (.terminal .equals) (.phrase .expression)))
  | .invocation => .sequence (.phrase .operand) (.many (.phrase .arguments))
  | .operand =>
    .choice (.phrase .memberChain) (.choice (.terminal .string) (.terminal .number))
  | .memberChain => .sequence (.terminal .symbol) (.many (.phrase .memberAccess))
  | .memberAccess => .attempt (.sequence (.terminal .point) (.terminal .symbol))
  | .arguments =>
    .attempt
      (.sequence (.terminal .leftRound)
        (.choice (.terminal .rightRound) (.phrase .argumentList)))
  | .argumentList =>
    .sequence (.phrase .expression)
      (.choice (.terminal .rightRound)
        (.sequence (.terminal .comma) (.phrase .argumentList)))

/-! ## Why the search ends -/

/-- Whether a phrase that is found has a token in it. Only a program may be
empty. -/
def reads : Phrase → Bool
  | .program => false
  | _ => true

/-- The order in which phrases may begin with one another: a phrase begins only
with phrases of lower rank. -/
def rank : Phrase → Nat
  | .assignment | .memberAccess | .arguments => 0
  | .memberChain => 1
  | .operand => 2
  | .invocation => 3
  | .expression => 4
  | .argumentList | .program => 5

/-- A bound above all ranks. -/
def rankBound : Nat := 6

end Phrase

namespace Pattern

/-- Whether a pattern that is found has a token in it. -/
def reads : Pattern → Bool
  | .nothing | .ended | .many _ => false
  | .terminal _ => true
  | .sequence p q => p.reads || q.reads
  | .choice p q => p.reads && q.reads
  | .attempt p => p.reads
  | .phrase x => x.reads

/-- Before anything is read only phrases below the bound are tried, and what is
repeated reads something each time. -/
def guarded (bound : Nat) : Pattern → Bool
  | .nothing | .ended | .terminal _ => true
  | .sequence p q => p.guarded bound && q.guarded (if p.reads then Phrase.rankBound else bound)
  | .choice p q => p.guarded bound && q.guarded bound
  | .many p => p.reads && p.guarded bound
  | .attempt p => p.guarded bound
  | .phrase x => x.rank < bound

end Pattern

/-- A phrase begins only with phrases of lower rank. -/
theorem Phrase.pattern_guarded (x : Phrase) : x.pattern.guarded x.rank = true := by
  cases x <;> decide

/-- A phrase that has a token in it has a pattern that does. -/
theorem Phrase.pattern_reads (x : Phrase) (h : x.reads = true) : x.pattern.reads = true := by
  cases x <;> first | decide | cases h

end Scriptlet
