import Spreadsheet.Function.Argument

/-!
# Powers

A double to the power of a double.

The values at zero, one and infinity are those of the IEEE standard, with two
differences: a zero to a negative power is a fault, not infinity, and so is a
result that is too large for a double although both operands are finite. A
negative base has a power only for whole exponents, whose parity gives the sign.

Everything else is a positive finite base other than one and a finite exponent
other than zero, and is left to the machine.

## Main definitions

* `Power.ofInfiniteExponent`, `Power.ofInfiniteBase`, `Power.ofZero`: The special
  values.
* `power`: A power of a double.
-/

namespace Spreadsheet

namespace Power

/-- Positive infinity. -/
def infinity : Float := 1.0 / 0.0

/-- A zero with the sign of `x` if the exponent is odd, and no sign otherwise. -/
def signedZero (x exponent : Float) : Float :=
  if Double.isOdd exponent ∧ Double.isNegative x then -0.0 else 0.0

/-- The power for an infinite exponent, given the size of the base: one stays one,
    and elsewhere the result is infinite or zero. -/
def ofInfiniteExponent (size exponent : Float) : Float :=
  if size == 1 then 1
  else if (exponent > 0 : Bool) == (size > 1 : Bool) then infinity
  else 0

/-- The power of an infinite base. -/
def ofInfiniteBase (base exponent : Float) : Float :=
  if exponent > 0 then
    if Double.isOdd exponent then base else infinity
  else signedZero base exponent

/-- The power of a zero. -/
def ofZero (base exponent : Float) : Except CallFault Float :=
  if exponent < 0 then .error .zeroToNegativePower else .ok (signedZero base exponent)

/-- The power of a positive finite base. -/
def ofPositive (base exponent : Float) : Except CallFault Float :=
  if base == 1 then .ok 1
  else
    let x := Float.pow base exponent
    if x.isInf then .error .beyondDoubles else .ok x

/-- The power of a negative finite base: that of its size, with a sign for odd
    exponents. -/
def ofNegative (base exponent : Float) : Except CallFault Float := do
  -- A size that is too large is reported even where there would be no power.
  let x ← ofPositive (-base) exponent
  if (Double.whole? exponent).isNone then .error .fractionalPower
  else if Double.isOdd exponent then pure (-x)
  else pure x

end Power

/-- A double to the power of a double. -/
def power (base exponent : Float) : Except CallFault Float :=
  if exponent == 0 then .ok 1
  else if base.isNaN then .ok base
  else if exponent.isNaN then .ok (if base == 1 then 1 else exponent)
  else if exponent.isInf then .ok (Power.ofInfiniteExponent base.abs exponent)
  else if base.isInf then .ok (Power.ofInfiniteBase base exponent)
  else if base == 0 then Power.ofZero base exponent
  else if base < 0 then Power.ofNegative base exponent
  else Power.ofPositive base exponent

end Spreadsheet
