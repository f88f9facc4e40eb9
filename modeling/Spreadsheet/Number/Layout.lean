import Spreadsheet.Number.Shortest

/-!
# Layout of Numbers

How the text of a double is laid out once its digits are chosen.

Two layouts are in use. A cell shows a number in full, however large or small it
is, and without a point if it is whole: spliced into a formula, such a text is
read again, and the reader knows no exponents. A document and a message use the
compact layout, which turns to an exponent where the digits would run too far
from the point and keeps a final `.0`, so that the text shows that the number is
not a whole number by kind.

## Main definitions

* `Layout`: What the two layouts decide.
* `Layout.cell`, `Layout.compact`: The layouts in use.
* `Layout.text`: The text of a double.
-/

namespace Spreadsheet

/-- The decisions of a layout. -/
structure Layout where
  /-- Whether a number is written without an exponent, given the place of its
      first digit. -/
  positional : Int → Bool
  /-- Whether a point and a zero follow a number without a fraction. -/
  pointZero : Bool

namespace Layout

/-- All digits in full, and no point after a whole number. -/
def cell : Layout where
  positional _ := true
  pointZero := false

/-- Full digits from `0.0001` to below `10 ^ 16`, and an exponent elsewhere. -/
def compact : Layout where
  positional place := -4 ≤ place ∧ place < 16
  pointZero := true

/-- The sign and the digits of an exponent, two digits at least. -/
def exponentText (place : Int) : List Char :=
  let digits := Nat.toDigits 10 place.natAbs
  (if place < 0 then '-' else '+') :: (if digits.length < 2 then '0' :: digits else digits)

/-- Digits, a point, and digits, as far as there are any after the point. -/
def joined (whole fraction : List Char) : List Char :=
  if fraction.isEmpty then whole else whole ++ '.' :: fraction

/-- The text of a decimal. -/
def decimalText (layout : Layout) (d : Decimal) : List Char :=
  if layout.positional d.leadingExponent then
    if d.fractionDigits.isEmpty && layout.pointZero then joined d.wholeDigits ['0']
    else joined d.wholeDigits d.fractionDigits
  else joined (d.digits.take 1) (d.digits.drop 1) ++ 'e' :: exponentText d.leadingExponent

/-- The text of the size of a double: its shortest decimal, laid out. -/
def sizeText (layout : Layout) (x : Float) : List Char :=
  if x.isInf then ['i', 'n', 'f']
  -- A zero has no first digit to search for.
  else layout.decimalText (if Double.units x = 0 then ⟨0, 0⟩ else shortest x)

/-- The text of a double, in characters. NaN has no sign; a negative zero has
    one. -/
def chars (layout : Layout) (x : Float) : List Char :=
  if x.isNaN then ['n', 'a', 'n']
  else if Double.isNegative x then '-' :: layout.sizeText x
  else layout.sizeText x

/-- The text of a double. -/
def text (layout : Layout) (x : Float) : String := String.ofList (layout.chars x)

end Layout

end Spreadsheet
