/-!
# Decimal Numbers

Exact decimals, and how their digits are laid out.

A decimal is a coefficient and a power of ten. It stands between the binary
numbers a sheet computes with and the digits it shows: a number is written by
choosing a decimal and laying it out, read by collecting a decimal and rounding
it once, and rounded to a number of places on the decimal it shows.

Signs are kept apart from decimals, so a decimal is never negative.

## Main definitions

* `Decimal`: A coefficient times a power of ten.
* `Decimal.normalize`: The same number without trailing zeros.
* `Decimal.wholeDigits`, `Decimal.fractionDigits`: The digits on the two sides
  of the point.
* `Decimal.roundAt`: The nearest multiple of a power of ten, a half going up.
* `Decimal.toFloat`: The nearest double.

## Theorems

* `normalize_mul`: Dropping trailing zeros keeps the number.
* `normalize_mod_ten`: No trailing zero is left.
-/

namespace Spreadsheet

/-- The number `coefficient * 10 ^ exponent`. -/
structure Decimal where
  coefficient : Nat
  exponent : Int
deriving Repr, DecidableEq

namespace Decimal

/-- The digits of the coefficient. Zero has the one digit `0`. -/
def digits (d : Decimal) : List Char := Nat.toDigits 10 d.coefficient

/-- The place of the first digit. -/
def leadingExponent (d : Decimal) : Int := d.exponent + (d.digits.length : Int) - 1

/-- The same number without the trailing zeros of its coefficient. -/
def normalize (d : Decimal) : Decimal :=
  if d.coefficient = 0 then ⟨0, 0⟩
  else if d.coefficient % 10 = 0 then normalize ⟨d.coefficient / 10, d.exponent + 1⟩
  else d
termination_by d.coefficient
decreasing_by omega

/-- The digits before the point: one zero if the number is below one. -/
def wholeDigits (d : Decimal) : List Char :=
  if 0 ≤ d.exponent then d.digits ++ List.replicate d.exponent.toNat '0'
  else
    let kept := d.digits.length - d.exponent.natAbs
    if kept = 0 then ['0'] else d.digits.take kept

/-- The digits after the point: none if the number is written as a whole one. -/
def fractionDigits (d : Decimal) : List Char :=
  if 0 ≤ d.exponent then []
  else
    let kept := d.digits.length - d.exponent.natAbs
    List.replicate (d.exponent.natAbs - d.digits.length) '0' ++ d.digits.drop kept

/-- The nearest whole number to `n / unit`, a half going up. -/
def roundQuotient (n unit : Nat) : Nat := (2 * n + unit) / (2 * unit)

/-- The nearest multiple of `10 ^ place`, a half going away from zero. A decimal
    that already is one stays as it is written. -/
def roundAt (d : Decimal) (place : Int) : Decimal :=
  if place ≤ d.exponent then d
  else ⟨roundQuotient d.coefficient (Nat.pow 10 (place - d.exponent).toNat), place⟩

/-- The nearest double, infinity if the number is beyond all of them. -/
def toFloat (d : Decimal) : Float :=
  Float.ofScientific d.coefficient (decide (d.exponent < 0)) d.exponent.natAbs

/-- The zeros that are dropped from the coefficient are counted in the exponent, so
    the number stays the same. -/
theorem normalize_mul (d : Decimal) (h : d.coefficient ≠ 0) :
    d.exponent ≤ d.normalize.exponent ∧
      d.normalize.coefficient * Nat.pow 10 (d.normalize.exponent - d.exponent).toNat
        = d.coefficient := by
  fun_induction normalize d with
  | case1 d zero => exact absurd zero h
  | case2 d nonzero tens ih =>
    obtain ⟨le, same⟩ := ih (by show d.coefficient / 10 ≠ 0; omega)
    generalize normalize _ = n at le same ⊢
    simp only at le same
    refine ⟨by omega, ?_⟩
    -- One more zero was dropped than by the rest of the way.
    have step : (n.exponent - d.exponent).toNat = (n.exponent - (d.exponent + 1)).toNat + 1 := by
      omega
    rw [step, Nat.pow_eq, Nat.pow_succ, ← Nat.pow_eq, ← Nat.mul_assoc, same]
    omega
  | case3 d nonzero tens => simp

/-- A normalized coefficient does not end in a zero. -/
theorem normalize_mod_ten (d : Decimal) (h : d.coefficient ≠ 0) :
    d.normalize.coefficient % 10 ≠ 0 := by
  fun_induction normalize d with
  | case1 d zero => exact absurd zero h
  | case2 d nonzero tens ih => exact ih (by show d.coefficient / 10 ≠ 0; omega)
  | case3 d nonzero tens => exact tens

end Decimal

end Spreadsheet
