import Spreadsheet.Number.Layout
import Spreadsheet.Number.Literal
import Spreadsheet.Text.Blank

/-!
# Numbers

The numbers of a sheet: whole numbers of any size, and doubles.

A whole number shows as `3`, never as `3.0`, so a double that is whole becomes a
whole number as soon as it is typed in or computed. What remains a double has a
fraction, or is infinite or not a number. A whole number can be beyond all
doubles, and then it cannot be computed with: `Number.toFloat?` says so.

## Main definitions

* `Number`: A whole number or a double.
* `Number.ofFloat`: A double, as a whole number if it is one.
* `Number.ofText?`: The number that a text spells.
* `Number.display`: The text that a cell shows.
* `Number.toFloat?`: The nearest double.
* `Number.exceededBy`: Whether a double is greater, compared exactly.
-/

namespace Spreadsheet

/-- A number held in a cell. -/
inductive Number where
  /-- A whole number of any size. -/
  | whole (n : Int)
  | float (x : Float)
deriving DecidableEq, Repr

namespace Number

/-- A double, as a whole number if it is one. Negative zero becomes zero. -/
def ofFloat (x : Float) : Number :=
  match Double.whole? x with
  | some n => whole n
  | none => float x

/-- The same number, whole by kind if it is whole. -/
def normalize : Number → Number
  | whole n => whole n
  | float x => ofFloat x

/-- The number that a text spells, blanks around it left out. -/
def ofText? (s : String) : Option Number := (Literal.value? (Text.trim s.toList)).map ofFloat

/-- The text that a cell shows: never an exponent, and no needless zeros. -/
def display (n : Number) : String :=
  match n.normalize with
  | whole n => toString n
  | float x => Layout.cell.text x

/-- The nearest double, if the number is not beyond all of them. -/
def toFloat? : Number → Option Float
  | whole n => Double.ofInt? n
  | float x => some x

/-- Whether a finite non-negative double is greater than a whole number. -/
def sizeAbove (x : Float) (n : Int) : Bool :=
  n * (Double.unitsPerOne : Int) < (Double.units x : Int)

/-- Whether the double `x`, which is not negative, is greater than the number.
    No rounding is involved, and NaN is not greater than anything. -/
def exceededBy (n : Number) (x : Float) : Bool :=
  match n with
  | float y => y < x
  | whole m => if x.isNaN then false else if x.isInf then true else sizeAbove x m

end Number

end Spreadsheet
