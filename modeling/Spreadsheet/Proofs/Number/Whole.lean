import Spreadsheet.Proofs.Number.ReadBack

/-!
# Whole Numbers as Doubles

Which whole numbers are doubles, and what becomes of the others.

A whole number with at most 53 digits is a double, a larger one is rounded, and from half
a step beyond the greatest double on there is infinity. What is rounded keeps its size
apart from the digits that are lost, so cutting the fraction off gives the number back, or
a number of which only the size is known.

## Theorems

* `Double.alike_ofInt`: A double that is whole is the nearest one to its whole number.
* `Double.nearestSize_eq_infinity_iff`: What is beyond the doubles.
* `Double.isSome_ofInt?_iff`: The whole numbers that are not beyond the doubles.
* `Double.truncate_ofInt`: A whole number, turned into a double and back.
-/

namespace Spreadsheet

open Float.Model
open Float.Model.UnpackedFloat (Sign)

namespace Double

variable {x : Float}

/-- A whole number is turned into the double nearest to it. -/
theorem ofNat_eq (n : ℕ) : Float.ofNat n = nearestSize n := by
  show Float.ofScientific n false 0 = _
  rw [ofScientific_eq, if_neg Bool.false_ne_true, Nat.cast_zero, zpow_zero, mul_one]

/-- A double that is whole is the one nearest to its whole number, apart from the sign
    of zero. -/
theorem alike_ofInt {n : ℤ} (h : whole? x = some n) : Alike (Float.ofInt n) x := by
  have hself := eq_of_size (isFinite_of_whole? h)
  unfold whole? at h
  split at h
  · rename_i hwhole
    -- Nothing is cut off where the double is whole.
    have hsize : size x = (units x / unitsPerOne : ℕ) := by
      rw [size, Nat.cast_div (Nat.dvd_of_mod_eq_zero hwhole.2) unitsPerOne_pos.ne']
    rw [hsize, ← ofNat_eq] at hself
    rw [← Option.some.inj h, truncate]
    generalize units x / unitsPerOne = k at hself
    by_cases hsign : isNegative x = true
    · rw [if_pos hsign] at hself
      rw [if_pos hsign, ← hself]
      cases k with
      | zero => exact Or.inr ⟨⟨.positive, rfl⟩, ⟨.negative, rfl⟩⟩
      | succ k => exact Alike.refl _
    · rw [if_neg hsign] at hself
      rw [if_neg hsign, ← hself]
      exact Alike.refl _
  · cases h

/-- A whole number is turned into the double of its size, with its sign. -/
theorem ofInt_eq (n : ℤ) :
    Float.ofInt n = if n < 0 then -nearestSize n.natAbs else nearestSize n.natAbs := by
  cases n with
  | ofNat n => exact ofNat_eq n
  | negSucc n =>
      rw [if_pos (Int.negSucc_lt_zero n)]
      exact congrArg (fun y => -y) (ofNat_eq (n + 1))

theorem ne_infinity_of_isFinite (h : x.isFinite = true) : x ≠ infinity := by
  rintro rfl
  exact absurd h (by decide +kernel)

/-- A number that is rounded is finite, or it is infinite and not NaN, with any sign. -/
theorem signed_cases {q : ℚ} (hq : 0 ≤ q) (negative : Bool) :
    ((if negative then -nearestSize q else nearestSize q).isFinite = true ∧
        nearestSize q ≠ infinity) ∨
      ((if negative then -nearestSize q else nearestSize q).isFinite = false ∧
        (if negative then -nearestSize q else nearestSize q).isNaN = false ∧
        nearestSize q = infinity) := by
  have hsigned : ∀ {y : Float}, y.isFinite = true →
      (if negative then -y else y).isFinite = true := fun hy => by
    split
    · exact isFinite_neg hy
    · exact hy
  rcases nearestSize_cases hq with hzero | ⟨m, e, hm, hparts⟩ | hinf
  · have hy : (nearestSize q).isFinite = true := by
      rw [hzero]
      decide +kernel
    exact Or.inl ⟨hsigned hy, ne_infinity_of_isFinite hy⟩
  · have hy : (nearestSize q).isFinite = true := by
      rw [hparts]
      exact hm.isFinite_ofParts .positive
    exact Or.inl ⟨hsigned hy, ne_infinity_of_isFinite hy⟩
  · rw [hinf]
    cases negative with
    | false => exact Or.inr ⟨by decide +kernel, by decide +kernel, rfl⟩
    | true => exact Or.inr ⟨by decide +kernel, by decide +kernel, rfl⟩

/-- The double of a whole number is finite unless that of its size is infinite. -/
theorem isFinite_ofInt_iff {n : ℤ} :
    (Float.ofInt n).isFinite = true ↔ nearestSize n.natAbs ≠ infinity := by
  have hcases := signed_cases (Nat.cast_nonneg n.natAbs) (decide (n < 0))
  simp only [decide_eq_true_eq] at hcases
  rw [ofInt_eq]
  rcases hcases with ⟨hfinite, hne⟩ | ⟨hfinite, _, heq⟩
  · exact iff_of_true hfinite hne
  · exact iff_of_false (by rw [hfinite]; exact Bool.false_ne_true) (not_not.mpr heq)

/-- From half a step beyond the greatest double on, a number is rounded to infinity. -/
theorem nearestSize_of_beyond {q : ℚ} (h : (2 ^ 53 - 1 / 2) * 2 ^ (971 : ℤ) ≤ q) :
    nearestSize q = infinity := by
  have hpow : (0 : ℚ) < 2 ^ (971 : ℤ) := zpow_pos two_pos _
  have hsplit : (2 : ℚ) ^ (1024 : ℤ) = 2 ^ 53 * 2 ^ (971 : ℤ) := by
    rw [show (1024 : ℤ) = ((53 : ℕ) : ℤ) + 971 from rfl, zpow_add₀ two_ne_zero, zpow_natCast]
  rcases le_or_gt (2 ^ (1024 : ℤ)) q with hlarge | hlt
  · exact nearestSize_of_large hlarge
  rw [hsplit] at hlt
  have hplace : place q = 971 := by
    refine place_eq ?_ hlt (Or.inl ?_) (by decide)
    · exact lt_of_lt_of_le (mul_pos (by norm_num) hpow) h
    · exact le_trans (mul_le_mul_of_nonneg_right (by norm_num) hpow.le) h
  rw [← le_div_iff₀ hpow] at h
  rw [← div_lt_iff₀ hpow] at hlt
  -- The steps are rounded up to a power of two, which has one digit too many.
  have hsteps : steps q = 2 ^ 53 := by
    rw [steps, hplace]
    generalize q / 2 ^ (971 : ℤ) = r at h hlt
    refine halfEven_eq ?_ ?_ (Or.inl (by decide)) (by linarith)
    · push_cast
      exact h
    · push_cast
      linarith
  rw [nearestSize, hsteps, hplace, fitted_eq .positive (k := 1) (by rw [Nat.log2_two_pow]; omega)
    (Or.inr (by rw [Nat.log2_two_pow]; omega)) (by decide), pack_of_large _ _ (by decide), infinity]

/-- From half a step beyond the greatest double on, a number is beyond the doubles. -/
theorem nearestSize_eq_infinity_iff {q : ℚ} (hq : 0 ≤ q) :
    nearestSize q = infinity ↔ (2 ^ 53 - 1 / 2) * 2 ^ (971 : ℤ) ≤ q := by
  refine ⟨fun hinf => ?_, nearestSize_of_beyond⟩
  by_contra hlt
  rw [not_le] at hlt
  have hpow : (0 : ℚ) < 2 ^ (971 : ℤ) := zpow_pos two_pos _
  have hpos : 0 < q := lt_of_le_of_ne hq fun hzero => by
    rw [← hzero, nearestSize_zero] at hinf
    exact ne_infinity_of_isFinite (by decide +kernel) hinf
  rcases full_or_place_eq hpos with hfull | ⟨hbelow, hleast⟩
  · rcases nearestSize_full hfull with ⟨m, e, hm, heq, _⟩ | ⟨_, hplace | ⟨hplace, hsteps⟩⟩
    · exact ne_infinity_of_isFinite (hm.isFinite_ofParts .positive) (heq.symm.trans hinf)
    · -- The place is that of the number, which is less than the next power of two.
      have hlog : Int.log 2 q < 1024 := by
        refine (Int.lt_zpow_iff_log_lt (b := 2) (by decide) hpos).mp ?_
        have hsplit : ((2 : ℕ) : ℚ) ^ (1024 : ℤ) = 2 ^ 53 * 2 ^ (971 : ℤ) := by
          rw [show (1024 : ℤ) = ((53 : ℕ) : ℤ) + 971 from rfl, Nat.cast_two,
            zpow_add₀ two_ne_zero, zpow_natCast]
        rw [hsplit]
        exact lt_trans hlt (mul_lt_mul_of_pos_right (by norm_num) hpow)
      rw [place] at hplace
      omega
    · rw [← div_lt_iff₀ hpow, ← hplace] at hlt
      have hle : steps q ≤ 2 ^ 53 - 1 := by
        refine halfEven_le_of_lt (div_pos hpos (zpow_pos two_pos _)).le ?_
        push_cast
        linarith
      omega
  · rcases nearestSize_of_least hpos hbelow hleast with ⟨hzero, _⟩ | ⟨hm, heq⟩
    · exact ne_infinity_of_isFinite (by decide +kernel) (hzero.symm.trans hinf)
    · exact ne_infinity_of_isFinite (hm.isFinite_ofParts .positive) (heq.symm.trans hinf)

theorem ofInt?_eq (n : ℤ) :
    ofInt? n = if (Float.ofInt n).isFinite then some (Float.ofInt n) else none := rfl

theorem isFinite_of_ofInt? {n : ℤ} {y : Float} (h : ofInt? n = some y) :
    y.isFinite = true ∧ y = Float.ofInt n := by
  rw [ofInt?_eq] at h
  split at h
  · rename_i hfinite
    rw [← Option.some.inj h]
    exact ⟨hfinite, rfl⟩
  · cases h

/-- The whole numbers that are not beyond the doubles. -/
theorem isSome_ofInt?_iff {n : ℤ} :
    (ofInt? n).isSome = true ↔ n.natAbs < (2 ^ 54 - 1) * 2 ^ 970 := by
  have hsome : (ofInt? n).isSome = true ↔ (Float.ofInt n).isFinite = true := by
    rw [ofInt?_eq]
    split
    · rename_i hfinite
      exact iff_of_true rfl hfinite
    · rename_i hfinite
      exact iff_of_false Bool.false_ne_true hfinite
  have hbound : (2 ^ 53 - 1 / 2 : ℚ) * 2 ^ (971 : ℤ) = ((2 ^ 54 - 1) * 2 ^ 970 : ℕ) := by
    rw [show (971 : ℤ) = ((970 : ℕ) : ℤ) + 1 from rfl, zpow_add_one₀ two_ne_zero, zpow_natCast,
      Nat.cast_mul, Nat.cast_pow 2 970, Nat.cast_two]
    generalize (2 : ℚ) ^ 970 = p
    norm_num
    ring
  rw [hsome, isFinite_ofInt_iff, Ne, nearestSize_eq_infinity_iff (Nat.cast_nonneg _), hbound, Nat.cast_le,
    Nat.not_le]

/-- The whole part of a double is its size cut off, with its sign. -/
theorem truncate_eq_floor (x : Float) :
    truncate x = if isNegative x then -(⌊size x⌋₊ : ℤ) else ⌊size x⌋₊ := by
  rw [truncate, size, Nat.floor_div_eq_div]

theorem truncate_positive {m : ℕ} {e : ℤ} (h : IsCanonical m e) :
    truncate (ofParts .positive m e h.pos) = ⌊(m * 2 ^ e : ℚ)⌋₊ := by
  have hparts := parts_of_unpack (h.unpack_ofParts .positive)
  rw [truncate_eq_floor, hparts.size_eq, if_neg fun hneg => Sign.noConfusion (hparts.sign.mp hneg)]

theorem truncate_negative {m : ℕ} {e : ℤ} (h : IsCanonical m e) :
    truncate (ofParts .negative m e h.pos) = -(⌊(m * 2 ^ e : ℚ)⌋₊ : ℤ) := by
  have hparts := parts_of_unpack (h.unpack_ofParts .negative)
  rw [truncate_eq_floor, hparts.size_eq, if_pos (hparts.sign.mpr rfl)]

/-- The double of a whole number is that number, or both have more than 53 digits. -/
theorem exists_floor_nearestSize {n : ℕ} (hpos : 0 < n) (h : nearestSize n ≠ infinity) :
    ∃ m e, ∃ hm : IsCanonical m e, nearestSize n = ofParts .positive m e hm.pos ∧
      (⌊(m * 2 ^ e : ℚ)⌋₊ = n ∨ 2 ^ 53 ≤ n ∧ 2 ^ 53 ≤ ⌊(m * 2 ^ e : ℚ)⌋₊) := by
  rcases Nat.lt_or_ge n (2 ^ 53) with hlt | hge
  · rcases exists_canonical_natCast hpos hlt with ⟨m, e, hm, _, hvalue⟩
    refine ⟨m, e, hm, ?_, Or.inl ?_⟩
    · rw [← hvalue, hm.nearestSize]
    · rw [hvalue, Nat.floor_natCast]
  · have hq : (0 : ℚ) < n := Nat.cast_pos.mpr hpos
    have hplace : 1 ≤ place n := le_place (by exact_mod_cast hge)
    -- The double has a mantissa with all its digits and a place above the units.
    rcases full_or_place_eq hq with hfull | ⟨_, hleast⟩
    · rcases nearestSize_full hfull with ⟨m, e, hm, heq, hdigits, he, _⟩ | hinf
      · refine ⟨m, e, hm, heq, Or.inr ⟨hge, Nat.le_floor ?_⟩⟩
        calc ((2 ^ 53 : ℕ) : ℚ) = 2 ^ 52 * 2 ^ (1 : ℤ) := by norm_num
          _ ≤ m * 2 ^ e := mul_le_mul (by exact_mod_cast hdigits)
              (zpow_le_zpow_right₀ one_le_two (by omega)) (by positivity) (Nat.cast_nonneg m)
      · exact absurd hinf.1 h
    · omega

/-- The whole part of the double of a whole number is that number, or both are beyond
    `2 ^ 53` on the same side. -/
theorem truncate_ofInt {n : ℤ} (h : (Float.ofInt n).isFinite = true) :
    truncate (Float.ofInt n) = n ∨ (2 ^ 53 ≤ n ∧ 2 ^ 53 ≤ truncate (Float.ofInt n)) ∨
      (n ≤ -2 ^ 53 ∧ truncate (Float.ofInt n) ≤ -2 ^ 53) := by
  have hinf := isFinite_ofInt_iff.mp h
  rcases Nat.eq_zero_or_pos n.natAbs with hzero | hpos
  · rw [Int.natAbs_eq_zero.mp hzero]
    exact Or.inl (by decide +kernel)
  rcases exists_floor_nearestSize hpos hinf with ⟨m, e, hm, heq, hfloor⟩
  rw [ofInt_eq, heq]
  by_cases hsign : n < 0
  · rw [if_pos hsign, hm.neg_ofParts, truncate_negative hm]
    omega
  · rw [if_neg hsign, truncate_positive hm]
    omega

end Double

end Spreadsheet
