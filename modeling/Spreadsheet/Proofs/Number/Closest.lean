import Spreadsheet.Proofs.Number.Whole

/-!
# No Double Is Nearer

The double that a number is rounded to is the nearest one there is.

The doubles from the place of the number on are whole multiples of one step, and among
these the rounded multiple is nearest. A double with a smaller exponent is below all
numbers with that place, and so below the least multiple that has all its digits, which
is itself no nearer than the rounded one.

## Theorems

* `Double.abs_halfEven_sub_le`: No whole number is nearer than the rounded one.
* `Double.size_nearestSize`: The rounded number is a multiple of its step.
* `Double.abs_size_nearestSize_sub_le`: No double is nearer than the rounded one.
-/

namespace Spreadsheet

namespace Double

variable {q : ℚ}

/-- Rounding goes past no more than a half. -/
theorem abs_halfEven_sub_half {r : ℚ} (hr : 0 ≤ r) : |(halfEven r : ℚ) - r| ≤ 1 / 2 := by
  have hle := Nat.floor_le hr
  have hlt := Nat.lt_floor_add_one r
  rw [abs_le, halfEven]
  split
  · constructor <;> linarith
  · split
    · rename_i heq
      have hparity : ⌊r⌋₊ + ⌊r⌋₊ % 2 = ⌊r⌋₊ ∨ ⌊r⌋₊ + ⌊r⌋₊ % 2 = ⌊r⌋₊ + 1 := by omega
      rcases hparity with h | h
      · rw [h]
        constructor <;> linarith
      · rw [h]
        push_cast
        constructor <;> linarith
    · push_cast
      constructor <;> linarith

/-- No whole number is nearer than the rounded one. -/
theorem abs_halfEven_sub_le {r : ℚ} (hr : 0 ≤ r) (n : ℕ) :
    |(halfEven r : ℚ) - r| ≤ |(n : ℚ) - r| := by
  have hhalf := abs_halfEven_sub_half hr
  by_cases heq : halfEven r = n
  · rw [heq]
  · -- Two whole numbers are at least one apart, and the rounded one is within a half.
    have hone : (1 : ℤ) ≤ |(halfEven r : ℤ) - n| := by
      have := abs_pos.mpr (sub_ne_zero.mpr (Nat.cast_injective.ne heq : (halfEven r : ℤ) ≠ n))
      omega
    have hapart : (1 : ℚ) ≤ |(halfEven r : ℚ) - n| := by exact_mod_cast hone
    have htriangle := abs_sub_le (halfEven r : ℚ) r n
    rw [abs_sub_comm r] at htriangle
    linarith

/-- The rounded number is a multiple of its step. -/
theorem size_nearestSize (hq : 0 ≤ q) (h : nearestSize q ≠ infinity) :
    size (nearestSize q) = steps q * 2 ^ place q := by
  have hparts : ∀ {m : ℕ} {e : ℤ} (hm : IsCanonical m e),
      size (ofParts .positive m e hm.pos) = m * 2 ^ e :=
    fun hm => (parts_of_unpack (hm.unpack_ofParts .positive)).size_eq
  have hzero : size zero = 0 := size_of_isZero ⟨_, unpack_zero⟩
  rcases eq_or_lt_of_le hq with rfl | hpos
  · have hsteps : steps 0 = 0 := by
      rw [steps, zero_div]
      exact_mod_cast halfEven_natCast 0
    rw [nearestSize_zero, hzero, hsteps, Nat.cast_zero, zero_mul]
  -- The steps have all digits, or the place is that of the least doubles.
  rcases full_or_place_eq hpos with hfull | ⟨hlt, hleast⟩
  · rcases nearestSize_full hfull with ⟨m, e, hm, heq, _, _, hvalue⟩ | ⟨hinf, _⟩
    · rw [heq, hparts hm, hvalue]
    · exact absurd hinf h
  · rcases nearestSize_of_least hpos hlt hleast with ⟨heq, hsteps⟩ | ⟨hm, heq⟩
    · rw [heq, hzero, hsteps, Nat.cast_zero, zero_mul]
    · rw [heq, hparts hm]

/-- No multiple of the step is nearer than the rounded one. -/
theorem abs_steps_mul_sub_le (hq : 0 ≤ q) (n : ℕ) :
    |steps q * 2 ^ place q - q| ≤ |n * 2 ^ place q - q| := by
  have hpow : (0 : ℚ) < 2 ^ place q := zpow_pos two_pos _
  have hscale : ∀ a : ℚ, |a * 2 ^ place q - q| = |a - q / 2 ^ place q| * 2 ^ place q := by
    intro a
    rw [← abs_of_pos hpow, ← abs_mul, abs_of_pos hpow, sub_mul, div_mul_cancel₀ _ hpow.ne']
  rw [hscale, hscale]
  exact mul_le_mul_of_nonneg_right (abs_halfEven_sub_le (div_nonneg hq hpow.le) n) hpow.le

/-- From the place on, a double is a multiple of the step. -/
theorem exists_multiple {e : ℤ} (m : ℕ) (h : place q ≤ e) :
    ∃ n : ℕ, (m * 2 ^ e : ℚ) = n * 2 ^ place q := by
  refine ⟨m * 2 ^ (e - place q).toNat, ?_⟩
  rw [Nat.cast_mul, Nat.cast_pow, Nat.cast_two, mul_assoc, ← zpow_natCast,
    ← zpow_add₀ two_ne_zero]
  congr 2
  omega

/-- With a smaller exponent, a double is below all numbers with that place. -/
theorem size_le_of_lt_place {m : ℕ} {e : ℤ} (hm : m < 2 ^ 53) (h : e < place q) :
    (m * 2 ^ e : ℚ) ≤ 2 ^ 52 * 2 ^ place q := by
  calc (m * 2 ^ e : ℚ) ≤ 2 ^ 53 * 2 ^ e := by
        refine mul_le_mul_of_nonneg_right ?_ (zpow_pos two_pos _).le
        exact_mod_cast hm.le
    _ = 2 ^ 52 * 2 ^ (e + 1) := by
        rw [zpow_add_one₀ two_ne_zero]
        ring
    _ ≤ 2 ^ 52 * 2 ^ place q := by
        refine mul_le_mul_of_nonneg_left ?_ (by norm_num)
        exact zpow_le_zpow_right₀ one_le_two (by omega)

/-- No double is nearer to a number than the one that it is rounded to. -/
theorem abs_size_nearestSize_sub_le (hq : 0 ≤ q) (h : nearestSize q ≠ infinity) {x : Float}
    (hx : x.isFinite = true) : |size (nearestSize q) - q| ≤ |size x - q| := by
  rcases eq_or_lt_of_le hq with rfl | hpos
  · rw [nearestSize_zero, size_of_isZero ⟨_, unpack_zero⟩, sub_zero, abs_zero]
    exact abs_nonneg _
  rw [size_nearestSize hq h]
  rcases isZero_or_exists_parts hx with hzero | ⟨s, m, e, hm, hunpack⟩
  · have hnearer := abs_steps_mul_sub_le hq 0
    rw [Nat.cast_zero, zero_mul] at hnearer
    rw [size_of_isZero hzero]
    exact hnearer
  have hparts := parts_of_unpack hunpack
  rw [hparts.size_eq]
  rcases le_or_gt (place q) e with hle | hgt
  · rcases exists_multiple m hle with ⟨n, hn⟩
    rw [hn]
    exact abs_steps_mul_sub_le hq n
  · -- The least multiple with all its digits lies between the double and the number.
    have hbelow := size_le_of_lt_place hparts.canonical.lt hgt
    have hfull : 2 ^ 52 * 2 ^ place q ≤ q := by
      rcases full_or_place_eq hpos with hfull | ⟨_, hplace⟩
      · exact hfull
      · have hleast := hparts.canonical.least
        omega
    have hnearer := abs_steps_mul_sub_le hq (2 ^ 52)
    rw [Nat.cast_pow, Nat.cast_ofNat, abs_of_nonpos (sub_nonpos.mpr hfull)] at hnearer
    rw [abs_of_nonpos (sub_nonpos.mpr (hbelow.trans hfull))]
    linarith

end Double

end Spreadsheet
