import Spreadsheet.Text.CodeRange

/-!
# Blank Characters

White space, and text without the white space around it.

A character is blank if it is white space for the Unicode standard or one of
the four separators U+001C to U+001F. The zero-width space U+200B and the byte
order mark U+FEFF are not blank. Whatever reads a number, an expression or an
argument drops the blanks around it first, and the same set separates the
tokens of an arithmetic expression.

## Main definitions

* `isBlank`: The class of blank characters.
* `trim`: A text without the blanks at its two ends.

## Theorems

* `length_trim_le`: Trimming never makes a text longer.
-/

namespace Spreadsheet

namespace Text

/-- White space and the separators U+001C to U+001F: 29 characters. -/
def blankRanges : CodeRanges :=
  [(0x9, 0xD), (0x1C, 0x20), (0x85, 0x85), (0xA0, 0xA0), (0x1680, 0x1680), (0x2000, 0x200A),
   (0x2028, 0x2029), (0x202F, 0x202F), (0x205F, 0x205F), (0x3000, 0x3000)]

/-- Whether a character is blank. -/
def isBlank (c : Char) : Bool := blankRanges.contains c

/-- The text without the blanks at its start. -/
def trimLeft (cs : List Char) : List Char := cs.dropWhile isBlank

/-- The text without the blanks at its end. -/
def trimRight (cs : List Char) : List Char := (cs.reverse.dropWhile isBlank).reverse

/-- The text without the blanks at its two ends. Blanks between other
    characters stay. -/
def trim (cs : List Char) : List Char := trimRight (trimLeft cs)

/-- Trimming never makes a text longer. -/
theorem length_trim_le (cs : List Char) : (trim cs).length ≤ cs.length := by
  have left : (trimLeft cs).length ≤ cs.length := (List.dropWhile_sublist _).length_le
  have right : (trimRight (trimLeft cs)).length ≤ (trimLeft cs).length := by
    have h := (List.dropWhile_sublist isBlank (l := (trimLeft cs).reverse)).length_le
    simpa [trimRight] using h
  exact Nat.le_trans right left

end Text

end Spreadsheet
