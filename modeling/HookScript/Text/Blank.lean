import HookScript.Text.Basic
import HookScript.Text.Ranges

/-!
# Blanks

The code points that count as blank around a type and in an empty document:
the ASCII controls that move the cursor or separate records, the next-line
control, and every space and line separator of Unicode.  Trimming removes them
from the ends of a text.
-/

namespace HookScript

/-- The blank code points. -/
def blankRanges : Ranges :=
  [(0x9, 0xD), (0x1C, 0x20), (0x85, 0x85), (0xA0, 0xA0), (0x1680, 0x1680), (0x2000, 0x200A),
    (0x2028, 0x2029), (0x202F, 0x202F), (0x205F, 0x205F), (0x3000, 0x3000)]

def CodePoint.isBlank (c : CodePoint) : Bool := blankRanges.contains c.val

namespace Text

def isBlank (text : Text) : Bool := text.all CodePoint.isBlank

def trimStart (text : Text) : Text := text.dropWhile CodePoint.isBlank

def trimEnd (text : Text) : Text := (trimStart text.reverse).reverse

/-- The text without the blanks at its ends. -/
def trim (text : Text) : Text := trimEnd (trimStart text)

end Text

end HookScript
