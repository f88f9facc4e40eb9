import Spreadsheet.Number.Decimal
import Spreadsheet.Text.Digit

/-!
# Numeric Literals

The texts that denote numbers.

A literal is an optional minus sign, digits, and possibly a point with digits
after it; the digits before the point may be missing, those after it may not.
There are no exponents, no separators and no plus sign. The digits may come from
any script, and from several in one literal. The value is the double nearest to
the decimal that the digits spell.

## Main definitions

* `Literal.decimalValue`: The double spelled by the digits around a point.
* `Literal.unsigned?`: A literal without its sign.
* `Literal.value?`: The value of a literal.
-/

namespace Spreadsheet

namespace Literal

/-- The number spelled by a list of digits. -/
def digitsValue (cs : List Char) : Nat :=
  cs.foldl (fun n c => 10 * n + (Text.digitValue? c).getD 0) 0

/-- The double nearest to the decimal with the given digits before and after the
    point. -/
def decimalValue (whole fraction : List Char) : Float :=
  Decimal.toFloat ⟨digitsValue (whole ++ fraction), -(fraction.length : Int)⟩

/-- The value of digits, or of digits with a point and at least one digit after
    it. -/
def unsigned? (cs : List Char) : Option Float :=
  let whole := cs.takeWhile Text.isDigit
  match cs.dropWhile Text.isDigit with
  | [] => if whole.isEmpty then none else some (decimalValue whole [])
  | c :: fraction =>
    if c = '.' ∧ fraction ≠ [] ∧ fraction.all Text.isDigit then
      some (decimalValue whole fraction)
    else none

/-- The value of a literal. A minus sign negates, so `-0` denotes negative
    zero. -/
def value? : List Char → Option Float
  | '-' :: cs => (unsigned? cs).map fun x => -x
  | cs => unsigned? cs

end Literal

end Spreadsheet
