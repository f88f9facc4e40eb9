import Mathlib
import Spreadsheet.Proofs.Number.Distance

/-!
# Adding Zeros

A zero among numbers that are added does not show in the sum.

Adding zero to a double gives the double back, except that the negative zero becomes
the positive one. The sign of a zero is lost as soon as anything else is added, and
where nothing is, it is lost when the sum is shown, since both zeros show as the whole
number zero. So sums are compared apart from the sign of zero (`Double.Alike`), which
adding respects. This is known of the operation by its rows for zeros alone, with no
look at how it rounds.

## Main definitions

* `Double.IsZero`: The two zeros.
* `Double.Alike`: Two doubles are the same apart from the sign of zero.

## Theorems

* `Double.Alike.add_right`: Adding the same keeps doubles alike.
* `Double.alike_add_zero`: Adding a zero gives what is alike.
* `Double.Alike.ofFloat_eq`: Doubles that are alike show the same number.
-/

namespace Spreadsheet

open Float.Model (UnpackedFloat)

namespace Double

/-- The positive or the negative zero. -/
def IsZero (x : Float) : Prop := ∃ s, x.toModel.unpack = .zero s

/-- Two doubles are the same apart from the sign of zero. -/
def Alike (x y : Float) : Prop := x = y ∨ (IsZero x ∧ IsZero y)

/-- A double is what its parts are packed to. -/
theorem pack_unpack (x : Float) : Float.ofModel (.pack x.toModel.unpack) = x :=
  Float.ofBits_toBits x

theorem add_eq_pack (x y : Float) :
    x + y = Float.ofModel
      (.pack (UnpackedFloat.add .binary64 x.toModel.unpack y.toModel.unpack)) := rfl

theorem isZero_pack (s : UnpackedFloat.Sign) : IsZero (Float.ofModel (.pack (.zero s))) := by
  refine ⟨s, ?_⟩
  cases s with
  | positive => rfl
  | negative => rfl

/-- There are no zeros but the two. -/
theorem IsZero.eq_zero_or {x : Float} (h : IsZero x) : x = 0 ∨ x = -0 := by
  rcases h with ⟨s, hs⟩
  rw [← pack_unpack x, hs]
  cases s with
  | positive => exact Or.inl (by decide +kernel)
  | negative => exact Or.inr (by decide +kernel)

theorem isZero_zero : IsZero 0 := by
  rw [show (0 : Float) = zero by decide +kernel]
  exact ⟨_, unpack_zero⟩

/-- The sum of two zeros is a zero. -/
theorem add_zeros_unpacked (s t : UnpackedFloat.Sign) :
    ∃ r, UnpackedFloat.add .binary64 (.zero s) (.zero t) = .zero r := by
  cases s with
  | positive =>
      cases t with
      | positive => exact ⟨_, rfl⟩
      | negative => exact ⟨_, rfl⟩
  | negative =>
      cases t with
      | positive => exact ⟨_, rfl⟩
      | negative => exact ⟨_, rfl⟩

theorem isZero_add {x y : Float} (hx : IsZero x) (hy : IsZero y) : IsZero (x + y) := by
  rcases hx with ⟨s, hs⟩
  rcases hy with ⟨t, ht⟩
  rcases add_zeros_unpacked s t with ⟨r, hr⟩
  rw [add_eq_pack, hs, ht, hr]
  exact isZero_pack r

namespace Alike

variable {x y z : Float}

theorem refl (x : Float) : Alike x x := Or.inl rfl

theorem trans (h : Alike x y) (h' : Alike y z) : Alike x z := by
  rcases h with rfl | ⟨hx, hy⟩
  · exact h'
  · rcases h' with rfl | ⟨_, hz⟩
    · exact Or.inr ⟨hx, hy⟩
    · exact Or.inr ⟨hx, hz⟩

/-- Adding the same keeps doubles alike. -/
theorem add_right (h : Alike x y) (z : Float) : Alike (x + z) (y + z) := by
  rcases h with rfl | ⟨hx, hy⟩
  · exact refl _
  · -- A zero that something else is added to leaves no trace of its sign.
    rcases hx with ⟨s, hs⟩
    rcases hy with ⟨t, ht⟩
    cases hz : z.toModel.unpack with
    | zero r => exact Or.inr ⟨isZero_add ⟨s, hs⟩ ⟨r, hz⟩, isZero_add ⟨t, ht⟩ ⟨r, hz⟩⟩
    | notANumber => exact Or.inl (by rw [add_eq_pack, add_eq_pack, hs, ht, hz]; rfl)
    | infinity r => exact Or.inl (by rw [add_eq_pack, add_eq_pack, hs, ht, hz]; rfl)
    | finite r m e hm => exact Or.inl (by rw [add_eq_pack, add_eq_pack, hs, ht, hz]; rfl)

/-- Doubles that are alike are both finite or both not. -/
theorem isFinite_eq (h : Alike x y) : x.isFinite = y.isFinite := by
  rcases h with rfl | ⟨⟨s, hs⟩, ⟨t, ht⟩⟩
  · rfl
  · show x.toModel.unpack.isFinite = y.toModel.unpack.isFinite
    rw [hs, ht]
    rfl

/-- Doubles that are alike show the same number. -/
theorem ofFloat_eq (h : Alike x y) : Number.ofFloat x = Number.ofFloat y := by
  have hzero : ∀ {x : Float}, IsZero x → Number.ofFloat x = .whole 0 := by
    intro x hx
    rcases hx.eq_zero_or with rfl | rfl
    · decide +kernel
    · decide +kernel
  rcases h with rfl | ⟨hx, hy⟩
  · rfl
  · rw [hzero hx, hzero hy]

end Alike

theorem add_eq_left {x z : Float} (h : UnpackedFloat.add .binary64 x.toModel.unpack
    z.toModel.unpack = x.toModel.unpack) : x + z = x := by
  rw [add_eq_pack, h, pack_unpack]

/-- Adding a zero gives what is alike. -/
theorem alike_add_zero (x : Float) {z : Float} (hz : IsZero z) : Alike (x + z) x := by
  rcases hz with ⟨t, ht⟩
  cases hx : x.toModel.unpack with
  -- Only here the sign can be lost.
  | zero s => exact Or.inr ⟨isZero_add ⟨s, hx⟩ ⟨t, ht⟩, ⟨s, hx⟩⟩
  | notANumber => exact Or.inl (add_eq_left (by rw [hx, ht]; rfl))
  | infinity s => exact Or.inl (add_eq_left (by rw [hx, ht]; rfl))
  | finite s m e hm => exact Or.inl (add_eq_left (by rw [hx, ht]; rfl))

end Double

end Spreadsheet
