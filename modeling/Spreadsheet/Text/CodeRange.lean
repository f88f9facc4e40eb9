/-!
# Ranges of Code Points

Sets of characters, kept as closed ranges of code points.

The properties of characters that a sheet depends on (blank, decimal digit,
printable, cased) are data of the Unicode standard, version 14.0. Each is a
list of ranges in a module named for the property; this module holds the one
function that looks a character up. The ranges of a table ascend, so a look-up
may stop at the first range that starts beyond the character: a letter of the
Latin alphabet is decided by the first few entries of a table of hundreds.

## Main definitions

* `CodeRanges`: A table of closed ranges.
* `CodeRanges.start?`: The first code point of the range around a character.
* `CodeRanges.contains`: Membership of a character in a table.
-/

namespace Spreadsheet

namespace Text

/-- Closed ranges of code points, in ascending order and apart. -/
abbrev CodeRanges := List (Nat × Nat)

namespace CodeRanges

/-- The first code point of the range that holds a code point, if one does.
    The search ends at the first range that starts beyond it. -/
def startOf? : CodeRanges → Nat → Option Nat
  | [], _ => none
  | (lo, hi) :: rest, n =>
    if n < lo then none else if n ≤ hi then some lo else startOf? rest n

/-- The first code point of the range that holds a character, if one does. -/
def start? (table : CodeRanges) (c : Char) : Option Nat := startOf? table c.toNat

/-- Whether a character lies in one of the ranges. -/
def contains (table : CodeRanges) (c : Char) : Bool := (table.start? c).isSome

end CodeRanges

end Text

end Spreadsheet
