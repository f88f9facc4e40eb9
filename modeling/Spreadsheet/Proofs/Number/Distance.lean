import Spreadsheet.Number

/-!
# Distances

Every number is as near to itself as any tolerance asks.

Two doubles count as different if the size of their difference is above a
tolerance. Between a number and itself the difference is zero, or it is not a
number, where the number is infinite or none. Neither is above a tolerance that is
not negative.

## Main definitions

* `Number.IsNonnegative`: A number that is not below zero.

## Theorems

* `Double.abs_sub_self`: The distance of a double from itself.
* `Number.exceededBy_sub_self`: It is within every tolerance.
-/

namespace Spreadsheet

open Float.Model (UnpackedFloat)

/-- A number that is not below zero. -/
def Number.IsNonnegative : Number → Prop
  | .whole n => 0 ≤ n
  | .float x => 0 ≤ x

instance (n : Number) : Decidable n.IsNonnegative :=
  match n with
  | .whole n => inferInstanceAs (Decidable (0 ≤ n))
  | .float x => inferInstanceAs (Decidable (0 ≤ x))

namespace Double

/-- Zero. -/
def zero : Float := .ofModel (.pack (.zero .positive))

/-- The double that is no number. -/
def notANumber : Float := .ofModel (.pack .notANumber)

theorem unpack_zero : zero.toModel.unpack = .zero .positive := rfl

theorem unpack_notANumber : notANumber.toModel.unpack = .notANumber := rfl

theorem sub_self_unpacked (u : UnpackedFloat) :
    UnpackedFloat.sub .binary64 u u = .zero .positive ∨
      UnpackedFloat.sub .binary64 u u = .notANumber := by
  cases u with
  | notANumber => exact Or.inr rfl
  | infinity s =>
      cases s with
      | positive => exact Or.inr rfl
      | negative => exact Or.inr rfl
  | zero s =>
      cases s with
      | positive => exact Or.inl rfl
      | negative => exact Or.inl rfl
  | finite s m e h =>
      -- The two mantissas are shifted alike and cancel.
      refine Or.inl ?_
      show UnpackedFloat.normalize .binary64 (_ - _) _ .positive = .zero .positive
      rw [Int.sub_self]
      rfl

/-- The distance of a double from itself is zero, if there is any. -/
theorem abs_sub_self (x : Float) : (x - x).abs = zero ∨ (x - x).abs = notANumber := by
  rcases sub_self_unpacked x.toModel.unpack with h | h
  · refine Or.inl ?_
    show Float.ofModel (Float.Model.abs (.pack (UnpackedFloat.sub .binary64 _ _))) = _
    rw [h]
    decide +kernel
  · refine Or.inr ?_
    show Float.ofModel (Float.Model.abs (.pack (UnpackedFloat.sub .binary64 _ _))) = _
    rw [h]
    decide +kernel

theorem not_lt_zero_unpacked {u : UnpackedFloat}
    (h : UnpackedFloat.le (.zero .positive) u = true) :
    UnpackedFloat.lt u (.zero .positive) = false := by
  cases u with
  | notANumber => rfl
  | infinity s =>
      cases s with
      | positive => rfl
      | negative => cases h
  | zero s => rfl
  | finite s m e hm =>
      cases s with
      | positive => rfl
      | negative => cases h

theorem not_lt_notANumber_unpacked (u : UnpackedFloat) :
    UnpackedFloat.lt u .notANumber = false := by
  cases u with
  | notANumber => rfl
  | infinity s =>
      cases s with
      | positive => rfl
      | negative => rfl
  | zero s => rfl
  | finite s m e hm =>
      cases s with
      | positive => rfl
      | negative => rfl

/-- A double that is at least zero is not less than zero. -/
theorem not_lt_zero {x : Float} (h : 0 ≤ x) : ¬ x < zero := by
  rw [show (0 : Float) = zero by decide +kernel] at h
  have hle : UnpackedFloat.le zero.toModel.unpack x.toModel.unpack = true :=
    of_decide_eq_true h
  rw [unpack_zero] at hle
  intro hlt
  have hlt' : UnpackedFloat.lt x.toModel.unpack zero.toModel.unpack = true :=
    of_decide_eq_true hlt
  rw [unpack_zero, not_lt_zero_unpacked hle] at hlt'
  exact Bool.false_ne_true hlt'

/-- Nothing is less than what is no number. -/
theorem not_lt_notANumber (x : Float) : ¬ x < notANumber := by
  intro hlt
  have hlt' : UnpackedFloat.lt x.toModel.unpack notANumber.toModel.unpack = true :=
    of_decide_eq_true hlt
  rw [unpack_notANumber, not_lt_notANumber_unpacked] at hlt'
  exact Bool.false_ne_true hlt'

end Double

/-- The distance of a double from itself is within every tolerance. -/
theorem Number.exceededBy_sub_self {tolerance : Number} (h : tolerance.IsNonnegative) (x : Float) :
    tolerance.exceededBy (x - x).abs = false := by
  cases tolerance with
  | float y =>
      refine decide_eq_false ?_
      rcases Double.abs_sub_self x with hzero | hnan
      · rw [hzero]
        exact Double.not_lt_zero h
      · rw [hnan]
        exact Double.not_lt_notANumber y
  | whole n =>
      rcases Double.abs_sub_self x with hzero | hnan
      · have hunits : Double.units Double.zero = 0 := by decide +kernel
        rw [hzero, exceededBy]
        rw [if_neg (by decide +kernel), if_neg (by decide +kernel), sizeAbove, hunits]
        exact decide_eq_false (Int.not_lt.mpr (Int.mul_nonneg h (Int.natCast_nonneg _)))
      · rw [hnan, exceededBy]
        exact if_pos (by decide +kernel)

end Spreadsheet
