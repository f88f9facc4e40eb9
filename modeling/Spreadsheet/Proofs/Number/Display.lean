import Spreadsheet.Proofs.Number.Numeral
import Spreadsheet.Proofs.Number.Shortest

/-!
# Displayed Numbers Read Back

The text that a cell shows for a number is a numeral, perhaps with a minus sign.

Laying out a decimal moves no digit: the digits on the two sides of the point are
those of its coefficient, with zeros in front where the number is below one. So
the numeral denotes the decimal that was laid out, and reading a displayed double
comes down to the one assumption about choosing digits, `Double.ReadsBack`. For a
whole number there is nothing to assume, since its digits are read as the double
nearest to it, whether that is the number itself or not.

## Main definitions

* `Double.ReadsBack`: A double is the one nearest to its shortest decimal.
* `Number.IsStored`: The numbers that a recomputed cell can hold.
* `Number.toDouble`: The double that a number is computed with.
* `Decimal.numeral`: The numeral of a decimal with digits after the point.

## Theorems

* `Decimal.value_numeral`: Laying out a decimal keeps what it denotes.
* `Number.exists_numeral`: What is displayed for a number.
-/

namespace Spreadsheet

namespace Double

/-- A double is the one nearest to its shortest decimal, with its sign. -/
def ReadsBack (x : Float) : Prop :=
  (if isNegative x then -(shortest x).toFloat else (shortest x).toFloat) = x

instance (x : Float) : Decidable (ReadsBack x) := inferInstanceAs (Decidable (_ = _))

/-- A finite double that is not whole has digits after the point. -/
theorem units_mod_of_whole? {x : Float} (hfinite : x.isFinite = true) (h : whole? x = none) :
    units x % unitsPerOne ≠ 0 := by
  intro hmod
  rw [whole?, if_pos ⟨hfinite, hmod⟩] at h
  cases h

theorem isFinite_of_whole? {x : Float} {n : Int} (h : whole? x = some n) : x.isFinite = true := by
  by_contra hfinite
  rw [whole?, if_neg fun hc => hfinite hc.1] at h
  cases h

end Double

namespace Decimal

variable {d : Decimal}

theorem isAsciiDigit_of_mem_digits : ∀ c ∈ d.digits, Text.isAsciiDigit c = true :=
  Text.isAsciiDigit_of_mem_toDigits

theorem isAsciiDigit_of_mem_zeros {n : Nat} : ∀ c ∈ List.replicate n '0',
    Text.isAsciiDigit c = true := by
  intro c hc
  rw [List.eq_of_mem_replicate hc]
  decide

theorem isAsciiDigit_wholeDigits : ∀ c ∈ d.wholeDigits, Text.isAsciiDigit c = true := by
  intro c hc
  unfold wholeDigits at hc
  split at hc
  · rcases List.mem_append.mp hc with hc | hc
    · exact isAsciiDigit_of_mem_digits c hc
    · exact isAsciiDigit_of_mem_zeros c hc
  · simp only at hc
    split at hc
    · rw [List.mem_singleton.mp hc]
      decide
    · exact isAsciiDigit_of_mem_digits c (List.mem_of_mem_take hc)

theorem isAsciiDigit_fractionDigits : ∀ c ∈ d.fractionDigits, Text.isAsciiDigit c = true := by
  intro c hc
  unfold fractionDigits at hc
  split at hc
  · cases hc
  · rcases List.mem_append.mp hc with hc | hc
    · exact isAsciiDigit_of_mem_zeros c hc
    · exact isAsciiDigit_of_mem_digits c (List.mem_of_mem_drop hc)

/-- The digits after the point are as many as the exponent says. -/
theorem length_fractionDigits (h : d.exponent < 0) :
    d.fractionDigits.length = d.exponent.natAbs := by
  rw [fractionDigits, if_neg (Int.not_le.mpr h)]
  simp only [List.length_append, List.length_replicate, List.length_drop]
  omega

/-- The digits on the two sides of the point spell the coefficient. -/
theorem ofDigitChars_append (h : d.exponent < 0) :
    Nat.ofDigitChars 10 (d.wholeDigits ++ d.fractionDigits) 0 = d.coefficient := by
  have hdigits : Nat.ofDigitChars 10 d.digits 0 = d.coefficient := Nat.ofDigitChars_ten_toDigits
  rw [wholeDigits, fractionDigits, if_neg (Int.not_le.mpr h), if_neg (Int.not_le.mpr h)]
  simp only
  by_cases hkept : d.digits.length - d.exponent.natAbs = 0
  · -- Below one there are only zeros in front of the digits.
    rw [if_pos hkept, hkept, List.drop_zero, Nat.ofDigitChars_append, Nat.ofDigitChars_append,
      show Nat.ofDigitChars 10 ['0'] 0 = 0 from rfl, Nat.ofDigitChars_replicate_zero, Nat.mul_zero]
    exact hdigits
  · -- From one on there are no zeros, and the digits are only cut in two.
    rw [if_neg hkept, show d.exponent.natAbs - d.digits.length = 0 by omega, List.replicate_zero,
      List.nil_append, List.take_append_drop]
    exact hdigits

/-- The numeral of a decimal with digits after the point. -/
def numeral (d : Decimal) (h : d.exponent < 0) : Numeral where
  whole := d.wholeDigits
  fraction := some d.fractionDigits
  isAsciiDigit_whole := isAsciiDigit_wholeDigits
  isAsciiDigit_fraction cs hcs := by
    rw [← Option.some.inj hcs]
    exact isAsciiDigit_fractionDigits
  ne_nil _ := by
    rw [Option.getD_some, ← List.length_pos_iff, length_fractionDigits h]
    omega

theorem chars_numeral (h : d.exponent < 0) :
    (d.numeral h).chars = Layout.cell.decimalText d := by
  have hne : d.fractionDigits.isEmpty = false := by
    rw [List.isEmpty_eq_false_iff, ← List.length_pos_iff, length_fractionDigits h]
    omega
  rw [Layout.decimalText, if_pos (show Layout.cell.positional d.leadingExponent = true from rfl),
    hne, Bool.false_and, if_neg Bool.false_ne_true, Layout.joined, hne, if_neg Bool.false_ne_true]
  rfl

theorem fraction_numeral_ne_nil (h : d.exponent < 0) : (d.numeral h).fraction ≠ some [] := by
  intro hnil
  have hlength := length_fractionDigits h
  rw [Option.some.inj hnil, List.length_nil] at hlength
  omega

/-- Laying out a decimal keeps what it denotes. -/
theorem value_numeral (h : d.exponent < 0) : (d.numeral h).value = d.toFloat := by
  have hascii : ∀ c ∈ d.wholeDigits ++ d.fractionDigits, Text.isAsciiDigit c = true := by
    intro c hc
    rcases List.mem_append.mp hc with hc | hc
    · exact isAsciiDigit_wholeDigits c hc
    · exact isAsciiDigit_fractionDigits c hc
  show Decimal.toFloat ⟨Literal.digitsValue (d.wholeDigits ++ d.fractionDigits),
    -(d.fractionDigits.length : Int)⟩ = d.toFloat
  rw [Literal.digitsValue_eq hascii, ofDigitChars_append h, length_fractionDigits h,
    show -(d.exponent.natAbs : Int) = d.exponent by omega]

end Decimal

namespace Numeral

/-- The digits of a whole number. -/
def ofNat (n : Nat) : Numeral where
  whole := Nat.toDigits 10 n
  fraction := none
  isAsciiDigit_whole := Text.isAsciiDigit_of_mem_toDigits
  isAsciiDigit_fraction cs hcs := by cases hcs
  ne_nil h := absurd h Nat.toDigits_ne_nil

theorem chars_ofNat (n : Nat) : (ofNat n).chars = Nat.toDigits 10 n := List.append_nil _

theorem value_ofNat (n : Nat) : (ofNat n).value = Float.ofNat n := by
  show Decimal.toFloat ⟨Literal.digitsValue (Nat.toDigits 10 n ++ []), 0⟩ = _
  rw [List.append_nil, Literal.digitsValue_eq Text.isAsciiDigit_of_mem_toDigits,
    Nat.ofDigitChars_ten_toDigits]
  rfl

end Numeral

namespace Number

/-- The numbers that a recomputed cell can hold: whole ones that a double can be, and
    finite doubles that are not whole. -/
def IsStored : Number → Prop
  | whole n => Double.whole? (Float.ofInt n) = some n
  | float x => x.isFinite = true ∧ Double.whole? x = none

/-- The double that a number is computed with. -/
def toDouble : Number → Float
  | whole n => Float.ofInt n
  | float x => x

/-- A stored number is the double that it is computed with. -/
theorem ofFloat_toDouble {n : Number} (h : n.IsStored) : ofFloat n.toDouble = n := by
  cases n with
  | whole n =>
      have hwhole : Double.whole? (Float.ofInt n) = some n := h
      rw [toDouble, ofFloat, hwhole]
  | float x => rw [toDouble, ofFloat, h.2]

theorem isFinite_toDouble {n : Number} (h : n.IsStored) : n.toDouble.isFinite = true := by
  cases n with
  | whole n => exact Double.isFinite_of_whole? h
  | float x => exact h.1

/-- What is displayed for a whole number. -/
theorem exists_numeral_whole (n : Int) :
    ∃ (negative : Bool) (m : Numeral), m.fraction = none ∧
      (whole n).display.toList = (if negative then '-' :: m.chars else m.chars) ∧
      Float.ofInt n = if negative then -m.value else m.value := by
  cases n with
  | ofNat n =>
      refine ⟨false, .ofNat n, rfl, ?_, ?_⟩
      · rw [if_neg Bool.false_ne_true, Numeral.chars_ofNat]
        exact Nat.toList_repr
      · rw [if_neg Bool.false_ne_true, Numeral.value_ofNat]
        rfl
  | negSucc n =>
      refine ⟨true, .ofNat (n + 1), rfl, ?_, ?_⟩
      · rw [if_pos rfl, Numeral.chars_ofNat, ← Nat.toList_repr]
        exact String.toList_append
      · rw [if_pos rfl, Numeral.value_ofNat]
        rfl

/-- The sign of a double that is not whole is displayed apart from its size, and the
    size is the shortest decimal. -/
theorem toList_display_float {x : Float} (hfinite : x.isFinite = true)
    (hwhole : Double.whole? x = none) (hexponent : (shortest x).exponent < 0) :
    (float x).display.toList = if Double.isNegative x
      then '-' :: ((shortest x).numeral hexponent).chars
      else ((shortest x).numeral hexponent).chars := by
  have hzero : Double.units x ≠ 0 := fun hzero =>
    Double.units_mod_of_whole? hfinite hwhole (by rw [hzero, Nat.zero_mod])
  rcases Double.not_isNaN_isInf hfinite with ⟨hnan, hinf⟩
  have hnormal : (float x).normalize = float x := by rw [normalize, ofFloat, hwhole]
  have hsize : Layout.cell.sizeText x = ((shortest x).numeral hexponent).chars := by
    rw [Layout.sizeText, hinf, if_neg Bool.false_ne_true, if_neg hzero,
      Decimal.chars_numeral hexponent]
  rw [display, hnormal]
  simp only
  rw [Layout.text, String.toList_ofList, Layout.chars, hnan, if_neg Bool.false_ne_true, hsize]

/-- What is displayed for a double that is not whole. -/
theorem exists_numeral_float {x : Float} (hfinite : x.isFinite = true)
    (hwhole : Double.whole? x = none) (hback : Double.ReadsBack x) :
    ∃ (negative : Bool) (m : Numeral), m.fraction ≠ some [] ∧
      (float x).display.toList = (if negative then '-' :: m.chars else m.chars) ∧
      x = if negative then -m.value else m.value := by
  have hexponent := exponent_shortest_neg (Double.units_mod_of_whole? hfinite hwhole)
  refine ⟨Double.isNegative x, (shortest x).numeral hexponent, ?_,
    toList_display_float hfinite hwhole hexponent, ?_⟩
  · exact Decimal.fraction_numeral_ne_nil hexponent
  · rw [Decimal.value_numeral hexponent]
    unfold Double.ReadsBack at hback
    exact hback.symm

/-- What is displayed for a number that a recomputed cell can hold. -/
theorem exists_numeral {n : Number} (h : n.IsStored)
    (hback : ∀ x, n = .float x → Double.ReadsBack x) :
    ∃ (negative : Bool) (m : Numeral), m.fraction ≠ some [] ∧
      n.display.toList = (if negative then '-' :: m.chars else m.chars) ∧
      n.toDouble = if negative then -m.value else m.value := by
  cases n with
  | whole n =>
      rcases exists_numeral_whole n with ⟨negative, m, hnone, hdisplay, hvalue⟩
      refine ⟨negative, m, ?_, hdisplay, hvalue⟩
      rw [hnone]
      exact Option.some_ne_none _ ∘ Eq.symm
  | float x => exact exists_numeral_float h.1 h.2 (hback x rfl)

end Number

end Spreadsheet
