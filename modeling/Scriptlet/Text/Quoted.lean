/-
Scriptlet.Text.Quoted — the quoted form of a text: double quotes outside, and
inside them an escape for every character that could not be read back from a
plain line of print. Each character is written on its own, so the form of a
text is the forms of its characters in a row.
-/
import Scriptlet.Text.GraphemeExtend
import Scriptlet.Text.Ignorable
import Scriptlet.Text.Printable

namespace Scriptlet.Text

/-- The code point of a character in lower-case hexadecimal digits without
padding, in braces behind a backslash and the letter u. -/
def hexEscape (c : Char) : List Char :=
  '\\' :: 'u' :: '\x7b' :: (Nat.toDigits 16 c.toNat ++ ['\x7d'])

/-- The halfwidth voiced and semi-voiced sound marks. They extend the character
before them, but unlike all other characters that do so they are letters, with a
form and a width of their own. -/
def isSoundMark (c : Char) : Bool :=
  c == '\uFF9E' || c == '\uFF9F'

/-- Whether a character would be lost on a line of print: it is not printable,
may be shown as nothing, or melts into the character before it. -/
def isHidden (c : Char) : Bool :=
  !isPrintable c || isIgnorable c || (isGraphemeExtend c && !isSoundMark c)

/-- One character of a quoted text. The double quote and the backslash get a
backslash; NUL, tab, line feed and carriage return have letters of their own;
any other character that would be lost is written as its code point; what is
left, the single quote too, stays. -/
def quotedChar (c : Char) : List Char :=
  if c = '\x22' then ['\\', '\x22']
  else if c = '\\' then ['\\', '\\']
  else if c = '\x00' then ['\\', '0']
  else if c = '\t' then ['\\', 't']
  else if c = '\n' then ['\\', 'n']
  else if c = '\r' then ['\\', 'r']
  else if isHidden c then hexEscape c
  else [c]

/-- The characters of a text between double quotes. -/
def quotedChars (cs : List Char) : List Char :=
  '\x22' :: (cs.flatMap quotedChar ++ ['\x22'])

/-- A text in its quoted form. -/
def quoted (text : String) : String :=
  String.ofList (quotedChars text.toList)

end Scriptlet.Text
