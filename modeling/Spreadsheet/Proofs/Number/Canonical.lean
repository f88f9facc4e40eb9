import Spreadsheet.Proofs.Number.Range
import Spreadsheet.Proofs.Number.Rounding
import Spreadsheet.Proofs.Number.Zero

/-!
# The Parts of a Double

A finite double has one mantissa and one exponent.

The mantissa has 53 digits, unless the exponent is the least one, and what has such
parts (`Double.IsCanonical`) is packed without a loss: unpacking gives the parts back.
For the same reason rounding changes nothing about it, since the parts are at the place
of the number already. The fields of the bits and the count of units say the same as
the parts.

## Main definitions

* `Double.IsCanonical`: A mantissa and an exponent that a double has.
* `Double.ofParts`: The double with a sign, a mantissa and an exponent.

## Theorems

* `IsCanonical.unpack_ofParts`: Packing loses nothing.
* `IsCanonical.place`, `IsCanonical.steps`: Rounding finds the parts again.
* `fields_of_unpack`: The fields of the bits tell the parts.
* `parts_of_unpack`: The parts, and what is counted in them.
-/

namespace Spreadsheet

open Float.Model
open Float.Model.UnpackedFloat (ExtendedMantissa Accuracy Sign packComponents unpackSign
  unpackExponent unpackMantissa unpackExponent_packComponents unpackMantissa_packComponents)

namespace Double

/-- A mantissa and an exponent that a positive double has. -/
structure IsCanonical (m : ℕ) (e : ℤ) : Prop where
  pos : 0 < m
  /-- The mantissa has at most 53 digits. -/
  lt : m < 2 ^ 53
  /-- The exponent is one that doubles have. -/
  least : -1074 ≤ e
  /-- The exponent is one that doubles have. -/
  greatest : e ≤ 971
  /-- The mantissa has 53 digits, if the exponent is not the least. -/
  full : 2 ^ 52 ≤ m ∨ e = -1074

/-- The double with a sign, a mantissa and an exponent. -/
def ofParts (s : Sign) (m : ℕ) (e : ℤ) (h : 0 < m) : Float :=
  .ofModel (.pack (.finite s m e h))

/-- Packed bits have the sign that they were packed with. -/
theorem unpackSign_packComponents (s : Sign) (e : BitVec Format.binary64.exponentBits)
    (m : BitVec Format.binary64.mantissaBitsWithoutImplicit) :
    unpackSign (packComponents .binary64 s e m) = s.toBitVec := by
  show (s.toBitVec ++ e ++ m).extractLsb' 63 1 = s.toBitVec
  rw [BitVec.extractLsb'_append_eq_of_le (by decide),
    BitVec.extractLsb'_append_eq_of_le (by decide)]
  exact BitVec.extractLsb'_eq_self

theorem ofBitVec_toBitVec (s : Sign) : Sign.ofBitVec s.toBitVec = s := by
  cases s with
  | positive => rfl
  | negative => rfl

/-- The digit that is left out in front of a fraction is put there again. -/
theorem toNat_one_append (m : BitVec 52) : (1#1 ++ m).toNat = 2 ^ 52 + m.toNat := by
  rw [BitVec.toNat_append, ← Nat.shiftLeft_add_eq_or_of_lt m.isLt]
  rfl

theorem finite_congr {s : Sign} {m m' : ℕ} {e e' : ℤ} (hm : m = m') (he : e = e') (h : 0 < m)
    (h' : 0 < m') : UnpackedFloat.finite s m e h = .finite s m' e' h' := by
  subst hm he
  rfl

/-- Fields with an exponent that is neither zero nor full. -/
theorem unpack_packComponents (s : Sign) {field : BitVec 11} (fraction : BitVec 52)
    (hzero : field ≠ 0#_) (hfull : field ≠ -1#_) :
    UnpackedFloat.unpack .binary64 (packComponents .binary64 s field fraction)
      = .finite s (2 ^ 52 + fraction.toNat) (field.toNat - 1075) (by omega) := by
  unfold UnpackedFloat.unpack
  simp only [unpackExponent_packComponents, unpackMantissa_packComponents,
    unpackSign_packComponents, ofBitVec_toBitVec]
  rw [if_neg hfull, if_neg hzero]
  exact finite_congr (toNat_one_append fraction) rfl _ _

/-- Fields with an exponent of zero. -/
theorem unpack_packComponents_zero (s : Sign) {fraction : BitVec 52} (h : 0 < fraction.toNat) :
    UnpackedFloat.unpack .binary64 (packComponents .binary64 s 0#_ fraction)
      = .finite s fraction.toNat (-1074) h := by
  have hne : fraction ≠ 0#_ := fun heq => by
    rw [heq] at h
    exact absurd h (by decide)
  unfold UnpackedFloat.unpack
  simp only [unpackExponent_packComponents, unpackMantissa_packComponents,
    unpackSign_packComponents, ofBitVec_toBitVec]
  rw [if_neg (by decide), if_pos trivial, dif_neg hne]
  rfl

namespace IsCanonical

variable {m : ℕ} {e : ℤ}

/-- Packing loses nothing. -/
theorem unpack_pack (h : IsCanonical m e) (s : Sign) :
    UnpackedFloat.unpack .binary64 (UnpackedFloat.pack .binary64 (.finite s m e h.pos))
      = .finite s m e h.pos := by
  have hleast := h.least
  have hgreatest := h.greatest
  have hlt := h.lt
  have hpos := h.pos
  rw [pack_finite s m e h.pos (by omega)]
  by_cases hfull : 2 ^ 52 ≤ m
  · -- The first digit is not packed, and the field of the exponent is not zero.
    have hfield : (BitVec.ofNat 11 (e + 1075).toNat).toNat = (e + 1075).toNat := by
      rw [BitVec.toNat_ofNat]
      omega
    have hne : ∀ n : BitVec 11, (e + 1075).toNat ≠ n.toNat →
        BitVec.ofNat 11 (e + 1075).toNat ≠ n := by
      rintro n hn rfl
      exact hn hfield.symm
    rw [(Nat.log2_eq_iff hpos.ne').mpr ⟨hfull, hlt⟩, if_pos rfl,
      unpack_packComponents s (BitVec.ofNat 52 m) (hne _ (by show (e + 1075).toNat ≠ 0; omega))
        (hne _ (by show (e + 1075).toNat ≠ 2047; omega))]
    refine finite_congr ?_ ?_ _ _
    · rw [BitVec.toNat_ofNat]
      omega
    · rw [hfield]
      omega
  · -- All digits are packed, and the exponent is the least.
    have hlog : m.log2 < 52 := (Nat.log2_lt hpos.ne').mpr (Nat.not_le.mp hfull)
    have hfraction : (BitVec.ofNat 52 m).toNat = m := by
      rw [BitVec.toNat_ofNat]
      omega
    rw [if_neg (by omega), unpack_packComponents_zero s (by rw [hfraction]; exact hpos)]
    exact finite_congr hfraction (h.full.resolve_left hfull).symm _ _

theorem unpack_ofParts (h : IsCanonical m e) (s : Sign) :
    (ofParts s m e h.pos).toModel.unpack = .finite s m e h.pos := h.unpack_pack s

theorem isFinite_ofParts (h : IsCanonical m e) (s : Sign) :
    (ofParts s m e h.pos).isFinite = true := by
  show (ofParts s m e h.pos).toModel.unpack.isFinite = true
  rw [h.unpack_ofParts]
  rfl

theorem value_pos (h : IsCanonical m e) : (0 : ℚ) < m * 2 ^ e :=
  mul_pos (Nat.cast_pos.mpr h.pos) (zpow_pos two_pos e)

/-- The exponent is the place of the number. -/
theorem place (h : IsCanonical m e) : Double.place (m * 2 ^ e) = e := by
  have hpow : (0 : ℚ) < 2 ^ e := zpow_pos two_pos e
  refine place_eq h.value_pos ?_ ?_ h.least
  · exact mul_lt_mul_of_pos_right (by exact_mod_cast h.lt) hpow
  · refine h.full.imp_left fun hfull => ?_
    exact mul_le_mul_of_nonneg_right (by exact_mod_cast hfull) hpow.le

/-- The mantissa is the number in units of its place. -/
theorem steps (h : IsCanonical m e) : Double.steps (m * 2 ^ e) = m := by
  rw [Double.steps, h.place, mul_div_cancel_right₀ _ (zpow_pos two_pos e).ne']
  exact halfEven_natCast m

/-- The parts of a double fit. -/
theorem fitted (h : IsCanonical m e) (s : Sign) : Double.fitted s m e = .finite s m e h.pos := by
  have hlog : (m.log2 : ℤ) + e - 52 ≤ e := by
    have := (Nat.log2_lt h.pos.ne').mpr h.lt
    omega
  have hleast := h.least
  rw [fitted_eq s (k := 0) (by push_cast; omega) (Or.inl rfl)
    (by rw [pow_zero, Nat.div_one]; exact h.pos)]
  exact finite_congr (by rw [pow_zero, Nat.div_one]) (by push_cast; omega) _ _

end IsCanonical

/-- The fraction field is the one that unpacking reads. -/
theorem fractionField_eq (x : Float) :
    fractionField x = (@unpackMantissa .binary64 x.toBits.toBitVec).toNat := by
  show x.toBits.toNat % 2 ^ 52 = (BitVec.extractLsb 51 0 x.toBits.toBitVec).toNat
  rw [BitVec.extractLsb_toNat]
  rfl

/-- The sign bit is the one that unpacking reads. -/
theorem isNegative_iff (x : Float) :
    isNegative x = true ↔
      Sign.ofBitVec (@unpackSign .binary64 x.toBits.toBitVec) = .negative := by
  have hlt : x.toBits.toNat < 2 ^ 64 := x.toBits.toNat_lt
  -- The sign is the bit above all others.
  have hbit : (@unpackSign .binary64 x.toBits.toBitVec).toNat = x.toBits.toNat / 2 ^ 63 := by
    show (BitVec.extractLsb 63 63 x.toBits.toBitVec).toNat = x.toBits.toNat / 2 ^ 63
    rw [BitVec.extractLsb_toNat, Nat.shiftRight_eq_div_pow]
    show x.toBits.toNat / 2 ^ 63 % 2 ^ 1 = x.toBits.toNat / 2 ^ 63
    omega
  rw [isNegative, decide_eq_true_eq, Sign.ofBitVec]
  show 2 ^ 63 ≤ x.toBits.toNat ↔ _
  constructor
  · intro h
    rw [if_neg]
    intro hzero
    rw [hzero] at hbit
    change 0 = x.toBits.toNat / 2 ^ 63 at hbit
    omega
  · intro h
    by_contra hle
    have hzero : @unpackSign .binary64 x.toBits.toBitVec = 0#1 :=
      BitVec.eq_of_toNat_eq (by rw [hbit]; show x.toBits.toNat / 2 ^ 63 = 0; omega)
    rw [if_pos hzero] at h
    cases h

/-- What the bits of a finite double other than zero say about its parts. -/
structure Parts (x : Float) (s : Sign) (m : ℕ) (e : ℤ) : Prop where
  /-- The parts are those of a double. -/
  canonical : IsCanonical m e
  /-- The sign bit is the sign. -/
  sign : isNegative x = true ↔ s = .negative
  /-- The next double is one unit of the exponent away. -/
  gap : gap x = 2 ^ (e + 1074).toNat
  /-- The mantissa counts units of the exponent. -/
  units : units x = m * Double.gap x
  /-- The fraction ends in the same digit as the mantissa. -/
  parity : fractionField x % 2 = m % 2
  /-- The next smaller double is nearer if the mantissa is a power of two. -/
  narrow : narrowBelow x = true ↔ m = 2 ^ 52 ∧ -1074 < e

/-- The fields of the bits tell the parts. The first digit of the mantissa is in the bits
    only if the field of the exponent is zero. -/
theorem fields_of_unpack {x : Float} {s : Sign} {m : ℕ} {e : ℤ} {h : 0 < m}
    (hx : x.toModel.unpack = .finite s m e h) :
    (isNegative x = true ↔ s = .negative) ∧
      ((exponentField x = 0 ∧ fractionField x = m ∧ e = -1074) ∨
        (exponentField x ≠ 0 ∧ 2 ^ 52 + fractionField x = m ∧ e = exponentField x - 1075)) := by
  have hsign := isNegative_iff x
  have hunpack : UnpackedFloat.unpack .binary64 x.toBits.toBitVec = .finite s m e h := hx
  -- A field of ones is no number, and with a field of zeros the first digit is missing.
  unfold UnpackedFloat.unpack at hunpack
  simp only at hunpack
  split at hunpack
  · split at hunpack
    · cases hunpack
    · cases hunpack
  · split at hunpack
    · rename_i hzero
      split at hunpack
      · cases hunpack
      · rcases UnpackedFloat.finite.inj hunpack with ⟨rfl, hm, he⟩
        rw [← fractionField_eq] at hm
        change ((@unpackExponent .binary64 x.toBits.toBitVec).toNat : ℤ)
          - ((1023 : ℤ) + (52 : ℤ)) + 1 = e at he
        have hfield : exponentField x = 0 := by
          rw [exponentField_eq, hzero]
          rfl
        rw [← exponentField_eq, hfield] at he
        exact ⟨hsign, Or.inl ⟨hfield, hm, by omega⟩⟩
    · rename_i hnotZero
      rcases UnpackedFloat.finite.inj hunpack with ⟨rfl, hm, he⟩
      change ((@unpackExponent .binary64 x.toBits.toBitVec).toNat : ℤ)
        - ((1023 : ℤ) + (52 : ℤ)) = e at he
      rw [← exponentField_eq] at he
      refine ⟨hsign, Or.inr ⟨fun hzero => hnotZero ?_, ?_, by omega⟩⟩
      · exact BitVec.eq_of_toNat_eq (by rw [← exponentField_eq, hzero]; rfl)
      · rw [fractionField_eq, ← toNat_one_append]
        exact hm

/-- The parts of a double, and the fields of its bits. -/
theorem parts_of_unpack {x : Float} {s : Sign} {m : ℕ} {e : ℤ} {h : 0 < m}
    (hx : x.toModel.unpack = .finite s m e h) : Parts x s m e := by
  have hle : exponentField x ≤ 2046 := exponentField_le (by
    show x.toModel.unpack.isFinite = true
    rw [hx]
    rfl)
  have hfraction : fractionField x < 2 ^ 52 := Nat.mod_lt _ (by decide)
  -- Either way the fields are the digits and the exponent, counted from the least double.
  rcases fields_of_unpack hx with ⟨hsign, ⟨hfield, hm, he⟩ | ⟨hfield, hm, he⟩⟩
  · have hgap : Double.gap x = 1 := by rw [Double.gap, hfield]
    refine ⟨⟨h, by omega, by omega, by omega, Or.inr he⟩, hsign, ?_, ?_, by rw [hm], ?_⟩
    · rw [hgap, he]
      rfl
    · rw [Double.units, if_pos hfield, hgap, hm, Nat.mul_one]
    · rw [narrowBelow, hfield, decide_eq_true_eq]
      omega
  · have hgap : Double.gap x = 2 ^ (exponentField x - 1) := rfl
    refine ⟨⟨h, by omega, by omega, by omega, Or.inl (by omega)⟩, hsign, ?_, ?_, by omega, ?_⟩
    · rw [hgap, show (e + 1074).toNat = exponentField x - 1 by omega]
    · rw [Double.units, if_neg hfield, ← hm]
      rfl
    · rw [narrowBelow, decide_eq_true_eq]
      omega

/-- A finite double is zero, or it has parts. -/
theorem isZero_or_exists_parts {x : Float} (h : x.isFinite = true) :
    IsZero x ∨ ∃ s m e, ∃ hm : 0 < m, x.toModel.unpack = .finite s m e hm := by
  have hunpack : x.toModel.unpack.isFinite = true := h
  cases hx : x.toModel.unpack with
  | notANumber =>
      rw [hx] at hunpack
      cases hunpack
  | infinity s =>
      rw [hx] at hunpack
      cases hunpack
  | zero s => exact Or.inl ⟨s, hx⟩
  | finite s m e hm => exact Or.inr ⟨s, m, e, hm, rfl⟩

/-- The zeros have no units. -/
theorem units_of_isZero {x : Float} (h : IsZero x) : units x = 0 := by
  rcases h.eq_zero_or with rfl | rfl
  · decide +kernel
  · decide +kernel

end Double

end Spreadsheet
