/-
Scriptlet.Rule.Basic — the rules of the language as values, and the modes,
which are lists of rules in the order in which they are tried.

`Rule.scan?_shortens`: a rule that applies reads at least one character.
-/
import Scriptlet.Rule.Blank
import Scriptlet.Rule.Comment
import Scriptlet.Rule.Literal
import Scriptlet.Rule.Punctuation
import Scriptlet.Rule.Symbol

namespace Scriptlet

/-- The rules by which tokens are read. -/
inductive Rule where
  | blank
  | paren
  | operator
  | comment
  | string
  | number
  | symbol
deriving DecidableEq

namespace Rule

/-- What the rule makes of the text at a cursor; `none` if it does not apply. -/
def scan? : Rule → Cursor → Option Scanned
  | .blank => blank?
  | .paren => paren?
  | .operator => operator?
  | .comment => comment?
  | .string => string?
  | .number => number?
  | .symbol => symbol?

/-- A rule that applies reads at least one character. -/
theorem scan?_shortens {r : Rule} {c : Cursor} {s : Scanned} (h : r.scan? c = some s) :
    s.stop.rest.length < c.rest.length := by
  cases r with
  | blank => exact blank?_shortens h
  | paren => exact paren?_shortens h
  | operator => exact operator?_shortens h
  | comment => exact comment?_shortens h
  | string => exact string?_shortens h
  | number => exact number?_shortens h
  | symbol => exact symbol?_shortens h

/-- What the first rule of a list that applies makes of the text at a cursor. -/
def scanFirst? (rules : List Rule) (c : Cursor) : Option Scanned :=
  rules.findSome? (·.scan? c)

/-- So does a list of rules of which one applies. -/
theorem scanFirst?_shortens {rules : List Rule} {c : Cursor} {s : Scanned}
    (h : scanFirst? rules c = some s) : s.stop.rest.length < c.rest.length := by
  obtain ⟨r, -, hr⟩ := List.exists_of_findSome?_eq_some h
  exact scan?_shortens hr

end Rule

/-- The languages that a source may be written in, piece by piece. -/
inductive Mode where
  | breakout
  | http
deriving DecidableEq

namespace Mode

/-- The name of a mode. -/
def name : Mode → String
  | .breakout => "Breakout"
  | .http => "Http"

/-- The rules of a mode in the order in which they are tried. White space is
the same in every mode, and nothing else is known of the language of HTTP. -/
def rules : Mode → List Rule
  | .breakout => [.blank, .paren, .operator, .comment, .string, .number, .symbol]
  | .http => [.blank]

end Mode

end Scriptlet
