/-!
# Doubles, Exactly

The exact value of a 64-bit floating-point number.

Every finite double is a whole number of units of `2 ^ -1074`, the least
positive one. Counting these units turns questions about a double into
questions about natural numbers: whether it is whole, what its whole part is,
how far its neighbours are away. The count is read off the bits, with eleven of
them for the exponent and fifty-two for the fraction.

The functions below speak of the size of a number and leave its sign to
`Double.isNegative`. Infinities and NaN have no size; callers test for them
with `Float.isFinite` first.

## Main definitions

* `Double.units`: The size of a double in units of `2 ^ -1074`.
* `Double.gap`: The distance to the next larger double.
* `Double.narrowBelow`: Whether the next smaller double is only half as far.
* `Double.whole?`: The whole number that a double is, if it is one.
* `Double.truncate`: The whole part of a double.
-/

namespace Spreadsheet

namespace Double

/-- The number of units of `2 ^ -1074` in the number one. -/
def unitsPerOne : Nat := Nat.pow 2 1074

/-- Whether the sign bit is set. It is for `-0.0`. -/
def isNegative (x : Float) : Bool := Nat.pow 2 63 ≤ x.toBits.toNat

/-- The exponent field of the bits. It is zero for the numbers below
    `2 ^ -1022`, which are spaced like those just above it. -/
def exponentField (x : Float) : Nat := x.toBits.toNat / Nat.pow 2 52 % Nat.pow 2 11

/-- The fraction field of the bits. -/
def fractionField (x : Float) : Nat := x.toBits.toNat % Nat.pow 2 52

/-- The distance, in units, from a number to the next larger one. -/
def gap (x : Float) : Nat := Nat.pow 2 (exponentField x - 1)

/-- The size of a finite number, in units. -/
def units (x : Float) : Nat :=
  if exponentField x = 0 then fractionField x else (Nat.pow 2 52 + fractionField x) * gap x

/-- Whether the next smaller number is half as far away as the next larger one:
    the powers of two, except for the least exponent. -/
def narrowBelow (x : Float) : Bool := fractionField x = 0 ∧ 1 < exponentField x

/-- The whole number with the size and the sign of `x`, cut off at the point. -/
def truncate (x : Float) : Int :=
  let size := units x / unitsPerOne
  if isNegative x then -(size : Int) else size

/-- The whole number that `x` is, if it is finite and whole. -/
def whole? (x : Float) : Option Int :=
  if x.isFinite ∧ units x % unitsPerOne = 0 then some (truncate x) else none

/-- The double nearest to a whole number, if it is not beyond all of them. -/
def ofInt? (n : Int) : Option Float :=
  let x := Float.ofInt n
  if x.isFinite then some x else none

/-- Whether `x` is an odd whole number. -/
def isOdd (x : Float) : Bool :=
  match whole? x with
  | some n => n % 2 = 1
  | none => false

end Double

end Spreadsheet
