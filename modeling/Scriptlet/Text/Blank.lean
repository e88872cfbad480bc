/-
Scriptlet.Text.Blank — the characters with the Unicode property White_Space
(version 17.0): 25 code points in 10 ranges.
-/
import Scriptlet.Text.CodeRange

namespace Scriptlet.Text

/-- The code points with the property White_Space. -/
def blankRanges : CodeRanges where
  ranges := [
    (0x9, 0xD), (0x20, 0x20), (0x85, 0x85), (0xA0, 0xA0), (0x1680, 0x1680), (0x2000, 0x200A),
    (0x2028, 0x2029), (0x202F, 0x202F), (0x205F, 0x205F), (0x3000, 0x3000)]

/-- White space in the sense of Unicode, line separators and no-break spaces included. -/
def isBlank (c : Char) : Bool :=
  blankRanges.has c.toNat

end Scriptlet.Text
