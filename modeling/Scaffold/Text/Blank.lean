import Scaffold.Text.Basic
import Scaffold.Text.Ranges

/-!
# Blanks

The code points that count as white space: the ASCII blanks, the four information separators
`U+001C`–`U+001F`, `U+0085`, and the space, line and paragraph separators of Unicode.  The zero
width space `U+200B` and the byte order mark `U+FEFF` are not among them.

* `CodePoint.isBlank` decides the class; `Text.strip` removes blanks from both ends.
-/

namespace Scaffold

/-- The intervals of blank code points. -/
def blankRanges : Ranges :=
  [(0x9, 0xD), (0x1C, 0x20), (0x85, 0x85), (0xA0, 0xA0), (0x1680, 0x1680), (0x2000, 0x200A),
   (0x2028, 0x2029), (0x202F, 0x202F), (0x205F, 0x205F), (0x3000, 0x3000)]

/-- The code point is white space. -/
def CodePoint.isBlank (c : CodePoint) : Bool := blankRanges.contains c.toNat

example : CodePoint.isBlank ' ' ∧ CodePoint.isBlank '\n' ∧ CodePoint.isBlank '\u3000' := by decide

example : ¬ CodePoint.isBlank '\u200b' ∧ ¬ CodePoint.isBlank '\ufeff' := by decide

namespace Text

/-- The text without the blanks at its beginning. -/
def stripLeft (t : Text) : Text := t.dropWhile CodePoint.isBlank

/-- The text without the blanks at its end. -/
def stripRight (t : Text) : Text := (t.reverse.dropWhile CodePoint.isBlank).reverse

/-- The text without the blanks at either end. -/
def strip (t : Text) : Text := t.stripLeft.stripRight

/-- Nothing remains of the text without its blanks. -/
def isBlank (t : Text) : Bool := t.all CodePoint.isBlank

end Text

end Scaffold
