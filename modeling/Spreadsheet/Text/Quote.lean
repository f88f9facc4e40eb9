import Spreadsheet.Text.Printable

/-!
# Quoted Text

How a message shows a piece of text: between quotes, on one line, with nothing
invisible in it.

Single quotes stand around the text, or double quotes if it holds a single
quote and no double one, so that most texts need no escape at all. A backslash,
the quote in use, the three usual control characters and everything that is not
printable are written with a backslash.

## Main definitions

* `hexDigits`: A number in hexadecimal, padded with zeros.
* `quote`: The quoted form of a text.
-/

namespace Spreadsheet

namespace Text

/-- The hexadecimal digits of a number, least significant first, `width` of
    them. -/
def hexDigitsRev : Nat → Nat → List Char
  | 0, _ => []
  | width + 1, n => Nat.digitChar (n % 16) :: hexDigitsRev width (n / 16)

/-- The last `width` hexadecimal digits of a number, in lower case. -/
def hexDigits (width n : Nat) : List Char := (hexDigitsRev width n).reverse

/-- The quotes around a text: single ones, unless it holds a single quote and no
    double one. -/
def quoteMark (cs : List Char) : Char :=
  if cs.contains '\'' && !cs.contains '"' then '"' else '\''

/-- One character inside quotes. A character that is not printable becomes its
    code point in two, four or eight hexadecimal digits. -/
def quoteChar (mark c : Char) : List Char :=
  if c = mark ∨ c = '\\' then ['\\', c]
  else if c = '\n' then ['\\', 'n']
  else if c = '\r' then ['\\', 'r']
  else if c = '\t' then ['\\', 't']
  else if isPrintable c then [c]
  else if c.toNat < 0x100 then '\\' :: 'x' :: hexDigits 2 c.toNat
  else if c.toNat < 0x10000 then '\\' :: 'u' :: hexDigits 4 c.toNat
  else '\\' :: 'U' :: hexDigits 8 c.toNat

/-- The text in quotes, as messages show it. -/
def quote (s : String) : String :=
  let mark := quoteMark s.toList
  String.ofList (mark :: s.toList.flatMap (quoteChar mark) ++ [mark])

end Text

end Spreadsheet
