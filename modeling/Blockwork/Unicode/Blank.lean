import Blockwork.Unicode.Ranges

/-!
# Blank characters

The blank characters are the spaces, the line and paragraph separators, the
control characters that move the carriage, and the four information separators
`U+001C` to `U+001F`.  The zero-width space `U+200B` and the byte order mark
`U+FEFF` are not blank.  `strip` drops blanks at both ends of a text.
-/

namespace Blockwork.Unicode

/-- The intervals of blank code points. -/
def blankRanges : List (Nat × Nat) := [
    (9, 13), (28, 32), (133, 133), (160, 160), (5760, 5760), (8192, 8202), (8232, 8233), (8239,
    8239), (8287, 8287), (12288, 12288)]

/-- Whether a character is blank. -/
def isBlank (c : Char) : Bool := covers blankRanges c.toNat

/-- The text without the blanks at its two ends. -/
def stripChars (cs : List Char) : List Char :=
  ((cs.dropWhile isBlank).reverse.dropWhile isBlank).reverse

/-- The text without the blanks at its two ends. -/
def strip (s : String) : String := String.ofList (stripChars s.toList)

end Blockwork.Unicode
