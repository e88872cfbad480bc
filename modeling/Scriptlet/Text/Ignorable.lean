/-
Scriptlet.Text.Ignorable — the characters with the Unicode property
Default_Ignorable_Code_Point (version 17.0), which are shown as nothing where
their effect is not known. Joiners, variation selectors and tags are among them,
and so are the four Hangul fillers, which count as letters all the same.
-/
import Scriptlet.Text.CodeRange

namespace Scriptlet.Text

/-- The code points with the property Default_Ignorable_Code_Point. -/
def ignorableRanges : CodeRanges where
  ranges := [
    (0xAD, 0xAD), (0x34F, 0x34F), (0x61C, 0x61C), (0x115F, 0x1160), (0x17B4, 0x17B5),
    (0x180B, 0x180F), (0x200B, 0x200F), (0x202A, 0x202E), (0x2060, 0x206F), (0x3164, 0x3164),
    (0xFE00, 0xFE0F), (0xFEFF, 0xFEFF), (0xFFA0, 0xFFA0), (0xFFF0, 0xFFF8),
    (0x1BCA0, 0x1BCA3), (0x1D173, 0x1D17A), (0xE0000, 0xE0FFF)]

/-- Whether a character may be shown as nothing. -/
def isIgnorable (c : Char) : Bool :=
  ignorableRanges.has c.toNat

end Scriptlet.Text
