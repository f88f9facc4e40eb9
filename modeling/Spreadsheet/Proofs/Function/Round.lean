import Spreadsheet.Function.Builtin
import Spreadsheet.Proofs.Number.Places
import Spreadsheet.Proofs.Number.Whole

/-!
# Rounding to Places

`ROUND` gives the double nearest to the rounded decimal, if it can read its second argument.

The function rounds the decimal that is shown for a double, in three ways: a decimal that
ends before the place is left alone, a decimal that starts well behind the place becomes
zero, and any other is rounded in whole numbers. All three are one formula, the decimal
rounded half away from zero and turned into a double (`Double.roundedAt`), and the digits
that are needed on the way are no more than the decimal has.

The number of places is read as a double. Up to `2 ^ 53` the double is the number itself;
beyond, it is far outside of the places where doubles have digits, as is the number. So the
double does as well as the number, as long as there is one: for a number of places that is
beyond the doubles the function fails.

## Main definitions

* `Double.roundedAt`: The shown decimal of a double, rounded half away from zero.
* `Builtin.RoundsAt`: `ROUND` gives the double nearest to it.

## Theorems

* `Double.beq_nearest`: Rounding respects signs.
* `Builtin.roundTo_beq`: The three ways are one formula.
* `Builtin.roundsAt_iff`: The numbers of places that `ROUND` can take.
-/

namespace Spreadsheet

open Float.Model (UnpackedFloat)

namespace Double

/-- The decimal that is shown for a double, rounded to some places after the point, or
    before it if negative, a half going away from zero. -/
def roundedAt (x : Float) (places : ℤ) : ℚ :=
  if isNegative x then -(shortest x).rounded places else (shortest x).rounded places

end Double

namespace Builtin

/-- `ROUND` gives the double nearest to what the shown decimal is rounded to. -/
def RoundsAt (x : Float) (places : ℤ) : Prop :=
  ∃ y, round.apply [some (.number (.float x)), some (.number (.whole places))]
      = .ok (some (.number (.float y))) ∧
    (y == Double.nearest (Double.roundedAt x places)) = true

end Builtin

namespace Double

/-- The double nearest to a number with a sign is that of its size, with the sign. -/
theorem beq_nearest {q : ℚ} (hq : 0 ≤ q) (negative : Bool) :
    ((if negative then -nearestSize q else nearestSize q)
      == nearest (if negative then -q else q)) = true := by
  have hnan : (if negative then -nearestSize q else nearestSize q).isNaN = false := by
    rcases signed_cases hq negative with ⟨hfinite, _⟩ | ⟨_, hnan, _⟩
    · exact (not_isNaN_isInf hfinite).1
    · exact hnan
  cases negative with
  | false =>
      rw [if_neg Bool.false_ne_true] at hnan ⊢
      rw [if_neg Bool.false_ne_true, nearest, if_neg (not_lt.mpr hq)]
      exact beq_self hnan
  | true =>
      rw [if_pos rfl] at hnan ⊢
      rw [if_pos rfl, nearest]
      rcases eq_or_lt_of_le hq with rfl | hpos
      · -- The sign of a zero is lost.
        rw [neg_zero, if_neg (lt_irrefl _), nearestSize_zero]
        decide +kernel
      · rw [if_pos (neg_lt_zero.mpr hpos), neg_neg]
        exact beq_self hnan

/-- Only the zeros equal zero. -/
theorem isZero_of_beq_zero {x : Float} (h : (x == 0) = true) : IsZero x := by
  have hbeq : UnpackedFloat.beq x.toModel.unpack (Float.toModel 0).unpack = true := h
  rcases isZero_zero with ⟨t, ht⟩
  rw [ht] at hbeq
  cases hu : x.toModel.unpack with
  | zero s => exact ⟨s, hu⟩
  | notANumber =>
      rw [hu] at hbeq
      cases hbeq
  | infinity s =>
      rw [hu] at hbeq
      cases s <;> cases hbeq
  | finite s m e hm =>
      rw [hu] at hbeq
      cases s <;> cases hbeq

end Double

namespace Builtin

open Double (IsZero isNegative nearest roundedAt)

variable {x : Float}

/-- A zero stands for what is rounded to zero. -/
theorem beq_nearest_zero {y : Float} (h : IsZero y) : (y == nearest 0) = true := by
  have hzero : nearest 0 = Double.zero := by
    rw [nearest, if_neg (lt_irrefl _), Double.nearestSize_zero]
  rw [hzero]
  exact Double.Alike.beq (Or.inr ⟨h, ⟨_, Double.unpack_zero⟩⟩) (by decide +kernel)

theorem roundedAt_eq_zero {places : ℤ} (h : (shortest x).rounded places = 0) :
    roundedAt x places = 0 := by
  rw [roundedAt, h, neg_zero, ite_self]

/-- The three ways of rounding are one formula. -/
theorem roundTo_beq (h : x.isFinite = true) (places : ℤ) :
    (roundTo x places == nearest (roundedAt x places)) = true := by
  rw [roundTo, h, if_neg (by decide)]
  by_cases hzero : (x == 0) = true
  · have hx := Double.isZero_of_beq_zero hzero
    have hshort : (shortest x).toRat = 0 := by
      rw [Double.shortest_of_isZero hx, Decimal.toRat, Nat.cast_zero, zero_mul]
    rw [if_pos hzero, roundedAt_eq_zero (Decimal.rounded_of_toRat_eq_zero hshort places)]
    refine beq_nearest_zero ?_
    split
    · exact Double.isZero_zero
    · exact hx
  · rw [if_neg hzero, roundShown]
    simp only
    by_cases hends : -places ≤ (shortest x).exponent
    · -- Nothing is cut off, and the double is the one nearest to its decimal.
      have hself := Double.beq_nearest (shortest x).toRat_nonneg (isNegative x)
      rw [← Decimal.toFloat_eq, Double.toFloat_shortest h, Double.eq_of_size h] at hself
      rw [if_pos hends, roundedAt, Decimal.rounded_of_ends hends]
      exact hself
    · rw [if_neg hends]
      by_cases hsmall : (shortest x).leadingExponent < -places - 1
      · rw [if_pos hsmall, roundedAt_eq_zero (Decimal.rounded_of_small hsmall)]
        exact beq_nearest_zero Double.isZero_zero
      · have hsize :=
          Double.beq_nearest ((shortest x).roundAt (-places)).toRat_nonneg (isNegative x)
        rw [← Decimal.toFloat_eq] at hsize
        rw [if_neg hsmall, roundedAt, ← Decimal.toRat_roundAt]
        exact hsize

/-- Beyond `2 ^ 53` places it does not matter how many there are. -/
theorem roundedAt_truncate (h : x.isFinite = true) {places : ℤ}
    (hplaces : (Float.ofInt places).isFinite = true) :
    roundedAt x (Double.truncate (Float.ofInt places)) = roundedAt x places := by
  have hlow := exponent_shortest_ge x
  have hhigh := leadingExponent_shortest_lt h
  have hsame : (shortest x).rounded (Double.truncate (Float.ofInt places))
      = (shortest x).rounded places := by
    rcases Double.truncate_ofInt hplaces with heq | ⟨hn, ht⟩ | ⟨hn, ht⟩
    · rw [heq]
    · rw [Decimal.rounded_of_ends (by omega), Decimal.rounded_of_ends (by omega)]
    · rw [Decimal.rounded_of_small (by omega), Decimal.rounded_of_small (by omega)]
  rw [roundedAt, roundedAt, hsame]

/-- What the function gives for a double and a whole number of places. -/
theorem apply_round (x : Float) (places : ℤ) :
    round.apply [some (.number (.float x)), some (.number (.whole places))]
      = match Double.ofInt? places with
        | some y => .ok (double (roundTo x (Double.truncate y)))
        | none => .error .beyondDoubles := by
  have hnumber : Argument.numberOr 0 (some (.number (.whole places)))
      = match Double.ofInt? places with
        | some y => .ok y
        | none => .error .beyondDoubles := by
    rw [Argument.numberOr, Argument.number?, Number.toFloat?]
    cases Double.ofInt? places with
    | some y => rfl
    | none => rfl
  show (Argument.numberOr 0 (some (.number (.whole places)))).bind (fun y =>
    (placesOf y).bind fun p => .ok (double (roundTo x p))) = _
  -- The places are converted first, and a double that comes out of this is finite.
  rw [hnumber]
  cases hplaces : Double.ofInt? places with
  | none => rfl
  | some y =>
      rcases Double.not_isNaN_isInf (Double.isFinite_of_ofInt? hplaces).1 with ⟨hnan, hinf⟩
      show (placesOf y).bind (fun p => .ok (double (roundTo x p))) = _
      rw [placesOf, hnan, hinf]
      rfl

/-- The double nearest to the rounded decimal is what the function gives for all numbers of
    places that are not beyond the doubles, and for no others. However the decimal of the
    double is written, it is what it is rounded to if it ends at the place, it is rounded to
    zero if its first digit stands two places behind, and in between rounding it in whole
    numbers takes no more digits than are allowed for. -/
theorem roundsAt_iff (h : x.isFinite = true) (places : ℤ) :
    (RoundsAt x places ↔ places.natAbs < (2 ^ 54 - 1) * 2 ^ 970) ∧
      ∀ d : Decimal, d.toRat = (shortest x).toRat →
        (-places ≤ d.exponent → (shortest x).rounded places = d.toRat) ∧
        (d.leadingExponent < -places - 1 → (shortest x).rounded places = 0) ∧
        (d.roundAt (-places)).toRat = (shortest x).rounded places ∧
        (d.roundAt (-places)).digits.length ≤ d.digits.length + places.natAbs + 2 := by
  refine ⟨?_, fun d hd => ?_⟩
  · rw [← Double.isSome_ofInt?_iff, RoundsAt, apply_round]
    cases hplaces : Double.ofInt? places with
    | none =>
        refine iff_of_false ?_ Bool.false_ne_true
        rintro ⟨y, herror, _⟩
        cases herror
    | some y =>
        -- Converted, the places may be others, but then all of them are beyond the digits.
        rcases Double.isFinite_of_ofInt? hplaces with ⟨hfinite, rfl⟩
        refine iff_of_true ⟨_, rfl, ?_⟩ rfl
        rw [← roundedAt_truncate h hfinite]
        exact roundTo_beq h _
  · have hsame : (shortest x).rounded places = d.rounded places := by
      rw [Decimal.rounded, Decimal.rounded, hd]
    rw [hsame]
    refine ⟨Decimal.rounded_of_ends, Decimal.rounded_of_small, d.toRat_roundAt places, ?_⟩
    exact (d.length_digits_roundAt (-places)).trans (by omega)

/-- A carry in the last of two places, which the decimal decides and not the double. -/
theorem roundsAt_carry : Float.isFinite 9.995 = true ∧ RoundsAt 9.995 2 := by
  have h : Float.isFinite 9.995 = true := by decide +kernel
  exact ⟨h, (roundsAt_iff h 2).1.mpr (by decide +kernel)⟩

/-- With more places than a double can count, the function fails, though there is nothing
    to round. -/
theorem not_roundsAt_beyond : Float.isFinite 1.5 = true ∧ ¬ RoundsAt 1.5 (10 ^ 309) := by
  refine ⟨by decide +kernel, ?_⟩
  rintro ⟨y, hy, _⟩
  have hnone : Double.ofInt? (10 ^ 309) = none := by decide +kernel
  rw [apply_round, hnone] at hy
  cases hy

end Builtin

end Spreadsheet
