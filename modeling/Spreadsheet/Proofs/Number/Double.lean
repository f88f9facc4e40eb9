import Spreadsheet.Number.Double
import Mathlib

/-!
# Signs and Steps of Doubles

What negation keeps, and how the whole numbers lie among the doubles.

A double is finite exactly if its exponent field is not full, and negation
changes no bit of that field, so the negative of a finite double is finite. The
bits are read off the logical model of the type, where packing an unpacked
number gives its bits back.

The doubles around a number are one step apart, and as long as it is not whole
a step is a part of one. Then every whole number is a number of steps away from
zero, as the double is, and no whole number lies between it and its neighbours.

## Theorems

* `Double.isFinite_neg`: Negation keeps a double finite.
* `Double.gap_dvd_units`, `Double.gap_dvd_unitsPerOne`: Doubles and whole numbers
  are made of steps.
-/

namespace Spreadsheet

namespace Double

section Sign

open Float.Model
open Float.Model.UnpackedFloat (packComponents unpackExponent unpackExponent_packComponents)

/-- A double is finite if its exponent field is not full. -/
theorem isFinite_unpack_iff (b : BitVec Format.binary64.numBits) :
    (UnpackedFloat.unpack Format.binary64 b).isFinite = true ↔ unpackExponent b ≠ -1#_ := by
  unfold UnpackedFloat.unpack
  simp only
  split
  · rename_i hfull
    split
    · exact iff_of_false Bool.false_ne_true (fun h => h hfull)
    · exact iff_of_false Bool.false_ne_true (fun h => h hfull)
  · rename_i hfull
    split
    · split
      · exact iff_of_true rfl hfull
      · exact iff_of_true rfl hfull
    · exact iff_of_true rfl hfull

/-- Negation leaves the exponent field as it is. -/
theorem unpackExponent_neg (u : UnpackedFloat) :
    unpackExponent (UnpackedFloat.pack Format.binary64 u.neg)
      = unpackExponent (UnpackedFloat.pack Format.binary64 u) := by
  cases u with
  | notANumber => rfl
  | infinity s =>
      simp only [UnpackedFloat.neg, UnpackedFloat.pack, UnpackedFloat.packedInfinity,
        unpackExponent_packComponents]
  | zero s =>
      simp only [UnpackedFloat.neg, UnpackedFloat.pack, UnpackedFloat.packedZero,
        unpackExponent_packComponents]
  | finite s m e h =>
      simp only [UnpackedFloat.neg, UnpackedFloat.pack]
      split
      · simp only [UnpackedFloat.packedInfinity, unpackExponent_packComponents]
      · split
        · simp only [unpackExponent_packComponents]
        · simp only [unpackExponent_packComponents]

/-- The fields of a number whose exponent is in range. The field of the exponent is zero
    if the mantissa is short of a digit. -/
theorem pack_finite (s : UnpackedFloat.Sign) (m : Nat) (e : Int) (h : 0 < m)
    (he : e + 1075 < 2047) :
    UnpackedFloat.pack Format.binary64 (.finite s m e h)
      = packComponents .binary64 s
          (if m.log2 + 1 = 53 then BitVec.ofNat 11 (e + 1075).toNat else 0#11)
          (BitVec.ofNat 52 m) := by
  -- The two constants of the format come to 1075.
  have hbiased : e + Format.binary64.exponentBias
      + Format.binary64.mantissaBitsWithoutImplicit = e + 1075 := by
    show e + (1023 : Int) + (52 : Int) = e + 1075
    omega
  rw [UnpackedFloat.pack, hbiased]
  simp only
  rw [if_neg (by show ¬ 2048 ≤ (e + 1075).toNat + 1; omega)]
  by_cases hlog : m.log2 + 1 = 53
  · rw [if_pos hlog]
    exact if_pos hlog
  · rw [if_neg hlog]
    exact if_neg hlog

/-- A number whose exponent is in range is packed with a field that is not full. -/
theorem unpackExponent_finite (s : UnpackedFloat.Sign) (m : Nat) (e : Int) (h : 0 < m)
    (he : e + 1075 < 2047) :
    unpackExponent (UnpackedFloat.pack Format.binary64 (.finite s m e h)) ≠ -1#_ := by
  rw [pack_finite s m e h he, unpackExponent_packComponents]
  split
  · intro hfull
    have hnat := congrArg BitVec.toNat hfull
    simp only [BitVec.toNat_ofNat, BitVec.reduceNeg] at hnat
    omega
  · decide

/-- Packing what was unpacked keeps a finite number finite. -/
theorem unpackExponent_pack_unpack {b : BitVec Format.binary64.numBits}
    (h : unpackExponent b ≠ -1#_) :
    unpackExponent (UnpackedFloat.pack Format.binary64
      (UnpackedFloat.unpack Format.binary64 b)) ≠ -1#_ := by
  unfold UnpackedFloat.unpack
  simp only
  rw [if_neg h]
  split
  · rename_i hzero
    split
    · rw [UnpackedFloat.pack, UnpackedFloat.packedZero, unpackExponent_packComponents]
      decide
    · refine unpackExponent_finite _ _ _ _ ?_
      rw [hzero]
      decide
  · refine unpackExponent_finite _ _ _ _ ?_
    -- The exponent is that of the field, which is not all ones.
    have hne : (unpackExponent b).toNat ≠ 2047 := fun hnat =>
      h (BitVec.eq_of_toNat_eq (by rw [hnat]; decide))
    have hlt : (unpackExponent b).toNat < 2048 := (unpackExponent b).isLt
    show ((unpackExponent b).toNat : Int) - ((1023 : Int) + (52 : Int)) + 1075 < 2047
    omega

/-- The negative of a finite double is finite. -/
theorem isFinite_neg {x : Float} (h : x.isFinite = true) : (-x).isFinite = true := by
  have hfield := unpackExponent_pack_unpack ((isFinite_unpack_iff x.toBits.toBitVec).mp h)
  rw [← unpackExponent_neg] at hfield
  exact (isFinite_unpack_iff _).mpr hfield

/-- A finite double is a number and not infinite. -/
theorem not_isNaN_isInf {x : Float} (h : x.isFinite = true) :
    x.isNaN = false ∧ x.isInf = false := by
  have hunpack : x.toModel.unpack.isFinite = true := h
  show x.toModel.unpack.isNaN = false ∧ x.toModel.unpack.isInf = false
  cases hu : x.toModel.unpack with
  | notANumber => rw [hu] at hunpack; cases hunpack
  | infinity s => rw [hu] at hunpack; cases hunpack
  | zero s => exact ⟨rfl, rfl⟩
  | finite s m e hm => exact ⟨rfl, rfl⟩

end Sign

theorem gap_pos (x : Float) : 0 < gap x := Nat.two_pow_pos _

/-- Every finite double is a number of steps. -/
theorem gap_dvd_units (x : Float) : gap x ∣ units x := by
  unfold units
  split
  · rename_i hzero
    -- Below the least normal number the steps are the units themselves.
    rw [gap, hzero]
    exact one_dvd _
  · exact dvd_mul_left _ _

/-- Unless a double is whole, the number one is a number of its steps. -/
theorem gap_dvd_unitsPerOne {x : Float} (h : units x % unitsPerOne ≠ 0) :
    gap x ∣ unitsPerOne := by
  rcases Nat.le_total (exponentField x - 1) 1074 with hle | hle
  · unfold gap unitsPerOne
    exact Nat.pow_dvd_pow 2 hle
  · have hdvd : unitsPerOne ∣ gap x := by
      unfold gap unitsPerOne
      exact Nat.pow_dvd_pow 2 hle
    exact absurd (Nat.dvd_iff_mod_eq_zero.mp (hdvd.trans (gap_dvd_units x))) h

/-- No whole number is nearer than a step to a double that is not whole. -/
theorem not_within_half_gap {x : Float} (h : units x % unitsPerOne ≠ 0) (n : Nat)
    (hlow : 2 * units x ≤ 2 * (n * unitsPerOne) + gap x)
    (hhigh : 2 * (n * unitsPerOne) ≤ 2 * units x + gap x) : False := by
  rcases gap_dvd_units x with ⟨a, ha⟩
  rcases gap_dvd_unitsPerOne h with ⟨b, hb⟩
  have hpos := gap_pos x
  rw [hb, ha] at h hlow hhigh
  generalize gap x = g at *
  -- Counted in steps, the two are less than one apart.
  have hle : a ≤ n * b := by
    have hmul : g * (2 * a) ≤ g * (2 * (n * b) + 1) := by
      calc g * (2 * a) = 2 * (g * a) := by ring
        _ ≤ 2 * (n * (g * b)) + g := hlow
        _ = g * (2 * (n * b) + 1) := by ring
    have := Nat.le_of_mul_le_mul_left hmul hpos
    omega
  have hge : n * b ≤ a := by
    have hmul : g * (2 * (n * b)) ≤ g * (2 * a + 1) := by
      calc g * (2 * (n * b)) = 2 * (n * (g * b)) := by ring
        _ ≤ 2 * (g * a) + g := hhigh
        _ = g * (2 * a + 1) := by ring
    have := Nat.le_of_mul_le_mul_left hmul hpos
    omega
  refine h ?_
  rw [Nat.le_antisymm hle hge, show g * (n * b) = n * (g * b) by ring]
  exact Nat.mul_mod_left _ _

end Double

end Spreadsheet
