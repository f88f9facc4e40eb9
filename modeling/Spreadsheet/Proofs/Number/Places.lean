import Spreadsheet.Proofs.Number.ReadBack

/-!
# Decimals Rounded at a Place

What rounding a decimal at a place gives, as a number.

The number that a decimal denotes is rounded to a multiple of a power of ten, a half
going up (`Decimal.rounded`). Whole numbers suffice for that: the digits behind the place
are a remainder, and adding half a unit before dividing takes care of them. A decimal
whose digits end at the place is the result already, and one whose first digit stands
two places behind it is rounded to zero.

The shortest decimals of doubles have their digits in a bounded stretch of places, so
that far beyond the stretch it does not matter where a place is.

## Main definitions

* `Decimal.rounded`: The number of a decimal, rounded to some places after the point.

## Theorems

* `Decimal.toRat_roundAt`: Rounding a decimal rounds its number.
* `Decimal.rounded_of_ends`, `Decimal.rounded_of_small`: Where there is nothing to round.
* `Decimal.length_digits_roundAt`: Rounding adds no digits.
* `exponent_shortest_ge`, `leadingExponent_shortest_lt`: Where the digits of doubles are.
-/

namespace Spreadsheet

namespace Decimal

/-- The number of a decimal rounded to some places after the point, or before it if
    negative, a half going up. -/
def rounded (d : Decimal) (places : ℤ) : ℚ :=
  ⌊d.toRat * 10 ^ places + 1 / 2⌋ * 10 ^ (-places)

variable (d : Decimal)

theorem toRat_nonneg : 0 ≤ d.toRat :=
  mul_nonneg (Nat.cast_nonneg _) (zpow_pos (by norm_num) _).le

theorem length_digits_pos : 0 < d.digits.length := List.length_pos_of_ne_nil Nat.toDigits_ne_nil

/-- A number is less than the power of ten after its first digit. -/
theorem toRat_lt : d.toRat < 10 ^ (d.leadingExponent + 1) := by
  have hlt : d.coefficient < 10 ^ d.digits.length :=
    (Nat.length_toDigits_le_iff (by decide) d.length_digits_pos).mp le_rfl
  have hsplit : d.leadingExponent + 1 = d.digits.length + d.exponent := by
    rw [leadingExponent]
    omega
  rw [hsplit, zpow_add₀ (by norm_num), zpow_natCast, toRat]
  exact mul_lt_mul_of_pos_right (by exact_mod_cast hlt) (zpow_pos (by norm_num) _)

variable {d}

/-- A number other than zero is at least the power of ten at its first digit. -/
theorem le_toRat (h : d.coefficient ≠ 0) : 10 ^ d.leadingExponent ≤ d.toRat := by
  have hpos := d.length_digits_pos
  have hle : 10 ^ (d.digits.length - 1) ≤ d.coefficient := by
    by_contra hlt
    by_cases hone : d.digits.length - 1 = 0
    · rw [hone, pow_zero] at hlt
      omega
    · have hlength := (Nat.length_toDigits_le_iff (by decide) (Nat.pos_of_ne_zero hone)).mpr
        (Nat.not_le.mp hlt)
      change d.digits.length ≤ _ at hlength
      omega
  have hsplit : d.leadingExponent = (d.digits.length - 1 : ℕ) + d.exponent := by
    rw [leadingExponent]
    omega
  rw [hsplit, zpow_add₀ (by norm_num), zpow_natCast, toRat]
  exact mul_le_mul_of_nonneg_right (by exact_mod_cast hle) (zpow_pos (by norm_num) _).le

/-- A number whose first digit stands two places behind the last one is rounded to zero. -/
theorem rounded_of_small {places : ℤ} (h : d.leadingExponent < -places - 1) :
    d.rounded places = 0 := by
  have hten : (0 : ℚ) < 10 ^ places := zpow_pos (by norm_num) _
  have hlt : d.toRat * 10 ^ places < 1 / 10 := by
    calc d.toRat * 10 ^ places < 10 ^ (d.leadingExponent + 1) * 10 ^ places :=
          mul_lt_mul_of_pos_right d.toRat_lt hten
      _ = 10 ^ (d.leadingExponent + 1 + places) := (zpow_add₀ (by norm_num) _ _).symm
      _ ≤ 10 ^ (-1 : ℤ) := zpow_le_zpow_right₀ (by norm_num) (by omega)
      _ = 1 / 10 := by norm_num
  have hnonneg := mul_nonneg d.toRat_nonneg hten.le
  have hfloor : ⌊d.toRat * 10 ^ places + 1 / 2⌋ = 0 :=
    Int.floor_eq_zero_iff.mpr ⟨by linarith, by linarith⟩
  rw [rounded, hfloor, Int.cast_zero, zero_mul]

theorem floor_intCast_add_half (n : ℤ) : ⌊(n + 1 / 2 : ℚ)⌋ = n := by
  rw [Int.floor_intCast_add, Int.floor_eq_zero_iff.mpr (by norm_num), Int.add_zero]

/-- Zero is rounded to zero. -/
theorem rounded_of_toRat_eq_zero (h : d.toRat = 0) (places : ℤ) : d.rounded places = 0 := by
  rw [rounded, h, zero_mul, ← Int.cast_zero, floor_intCast_add_half, Int.cast_zero, zero_mul]

/-- A decimal that ends at the place is what it is rounded to. -/
theorem rounded_of_ends {places : ℤ} (h : -places ≤ d.exponent) :
    d.rounded places = d.toRat := by
  have hwhole : d.toRat * 10 ^ places
      = (d.coefficient * 10 ^ (d.exponent + places).toNat : ℕ) := by
    rw [toRat, mul_assoc, ← zpow_add₀ (by norm_num)]
    push_cast
    rw [← zpow_natCast, Int.toNat_of_nonneg (by omega)]
  have hfloor : (⌊d.toRat * 10 ^ places + 1 / 2⌋ : ℚ) = d.toRat * 10 ^ places := by
    rw [hwhole, ← Int.cast_natCast (R := ℚ), floor_intCast_add_half]
  rw [rounded, hfloor, zpow_neg, mul_inv_cancel_right₀ (zpow_ne_zero _ (by norm_num))]

/-- A rounded quotient is the quotient rounded. -/
theorem floor_div_add_half (n : ℕ) {u : ℕ} (hu : 0 < u) :
    ⌊(n : ℚ) / u + 1 / 2⌋ = roundQuotient n u := by
  have hpos : (u : ℚ) ≠ 0 := Nat.cast_ne_zero.mpr hu.ne'
  have hsum : (n : ℚ) / u + 1 / 2 = ((2 * n + u : ℕ) : ℤ) / (2 * u : ℕ) := by
    push_cast
    field_simp
  rw [hsum, Rat.floor_intCast_div_natCast, roundQuotient, Int.natCast_div]

/-- Rounding a decimal rounds its number. -/
theorem toRat_roundAt (d : Decimal) (places : ℤ) :
    (d.roundAt (-places)).toRat = d.rounded places := by
  unfold roundAt
  by_cases hends : -places ≤ d.exponent
  · rw [if_pos hends, rounded_of_ends hends]
  · have hunit : d.toRat * 10 ^ places
        = d.coefficient / (10 ^ (-places - d.exponent).toNat : ℕ) := by
      rw [toRat, mul_assoc, ← zpow_add₀ (by norm_num), Nat.cast_pow, Nat.cast_ofNat,
        ← zpow_natCast, Int.toNat_of_nonneg (by omega), div_eq_mul_inv, ← zpow_neg]
      congr 2
      omega
    rw [if_neg hends, rounded, hunit, floor_div_add_half _ (Nat.pow_pos (by decide)), toRat]
    rfl

/-- Rounding adds no digits. -/
theorem length_digits_roundAt (d : Decimal) (place : ℤ) :
    (d.roundAt place).digits.length ≤ d.digits.length := by
  unfold roundAt
  by_cases hends : place ≤ d.exponent
  · rw [if_pos hends]
  · rw [if_neg hends]
    have hpos : 0 < Nat.pow 10 (place - d.exponent).toNat := Nat.pow_pos (by decide)
    generalize Nat.pow 10 (place - d.exponent).toNat = u at hpos
    have hle : roundQuotient d.coefficient u ≤ d.coefficient := by
      refine Nat.lt_succ_iff.mp ((Nat.div_lt_iff_lt_mul (by omega)).mpr ?_)
      have hmul := Nat.le_mul_of_pos_right d.coefficient hpos
      rw [Nat.mul_left_comm, Nat.succ_mul d.coefficient]
      omega
    refine (Nat.length_toDigits_le_iff (by decide) d.length_digits_pos).mpr ?_
    exact lt_of_le_of_lt hle
      ((Nat.length_toDigits_le_iff (by decide) d.length_digits_pos).mp le_rfl)

end Decimal

/-- No shortest decimal has digits further behind the point than the exact values have. -/
theorem exponent_shortest_ge (x : Float) : -1074 ≤ (shortest x).exponent := by
  rcases shortest_cases x with ⟨d, hd, hge, _⟩
  rw [hd]
  by_cases hzero : d.coefficient = 0
  · rw [Decimal.normalize, if_pos hzero]
    decide
  · exact hge.trans (d.normalize_mul hzero).1

/-- No shortest decimal has its first digit further before the point. -/
theorem leadingExponent_shortest_lt {x : Float} (h : x.isFinite = true) :
    (shortest x).leadingExponent < 1024 := by
  rcases Double.isZero_or_exists_parts h with hzero | ⟨s, m, e, hm, hx⟩
  · rw [Double.shortest_of_isZero hzero]
    decide
  · have hparts := Double.parts_of_unpack hx
    have hcanonical := hparts.canonical
    have hpow : (0 : ℚ) < 2 ^ e := zpow_pos two_pos e
    have hnear := hparts.near_shortest
    have hlt : (m : ℚ) + 1 ≤ 2 ^ 53 := by exact_mod_cast hcanonical.lt
    have hone : (1 : ℚ) ≤ m := by exact_mod_cast hcanonical.pos
    have hhigh := hnear.high
    have hlow := hnear.low
    have hpos : 0 < (shortest x).toRat := (div_pos_iff_of_pos_right hpow).mp (by linarith)
    have hnonzero : (shortest x).coefficient ≠ 0 := fun hzero => by
      rw [Decimal.toRat, hzero, Nat.cast_zero, zero_mul] at hpos
      exact lt_irrefl _ hpos
    -- The decimal lies near a double, and so below the power of two behind all doubles.
    have hbound : (10 : ℚ) ^ (shortest x).leadingExponent < 10 ^ (1024 : ℤ) := by
      calc (10 : ℚ) ^ (shortest x).leadingExponent ≤ (shortest x).toRat :=
            Decimal.le_toRat hnonzero
        _ < 2 ^ ((53 : ℕ) : ℤ) * 2 ^ e := by
            rw [zpow_natCast, ← div_lt_iff₀ hpow]
            linarith
        _ = 2 ^ (((53 : ℕ) : ℤ) + e) := (zpow_add₀ two_ne_zero _ _).symm
        _ ≤ 2 ^ (1024 : ℤ) := zpow_le_zpow_right₀ one_le_two (by have := hcanonical.greatest; omega)
        _ ≤ 10 ^ (1024 : ℤ) := by
            rw [Double.ten_zpow]
            exact le_mul_of_one_le_right (zpow_pos two_pos _).le
              (one_le_zpow₀ (by norm_num) (by decide))
    exact (zpow_lt_zpow_iff_right₀ (by norm_num)).mp hbound

end Spreadsheet
