import Spreadsheet.Number.Decimal
import Spreadsheet.Proofs.Number.Canonical

/-!
# Decimals Are Rounded Once

The double of a decimal depends on the number that the decimal denotes, and on nothing
else.

A decimal is turned into a double in one of two ways. With few digits and a small power
of ten both are doubles, and one operation of the machine on them rounds the result;
otherwise the quotient or the product is formed in whole numbers and rounded, unless the
power of ten shows at once that it is beyond the doubles or below them all. In each case
what is rounded is the number itself, so the result is the double at its place
(`Double.nearestSize`). Zeros at the end of the coefficient and leading zeros, and how a
number is split in digits and exponent, make no difference.

## Main definitions

* `Decimal.toRat`: The number that a decimal denotes.
* `Double.nearestSize`, `Double.nearest`: The double nearest to a rational number, a tie
  going to the even mantissa.

## Theorems

* `Double.mul_finite_eq`, `Double.div_finite_eq`: Products and quotients are rounded once.
* `Double.nearestSize_cases`: What a number is rounded to.
* `Decimal.toFloat_eq`: The double of a decimal is the one nearest to its number.
-/

namespace Spreadsheet

open Float.Model
open Float.Model.UnpackedFloat (ExtendedMantissa Accuracy Sign)

/-- The number that a decimal denotes. -/
def Decimal.toRat (d : Decimal) : ℚ := d.coefficient * 10 ^ d.exponent

namespace Double

/-- The double nearest to a number that is not negative. -/
def nearestSize (q : ℚ) : Float := .ofModel (.pack (fitted .positive (steps q) (place q)))

/-- The double nearest to a number. -/
def nearest (q : ℚ) : Float := if q < 0 then -nearestSize (-q) else nearestSize q

/-- Positive infinity. -/
def infinity : Float := .ofModel (.pack (.infinity .positive))

theorem place_ge (q : ℚ) : -1074 ≤ place q := le_max_right _ _

/-- Nothing is left of zero. -/
theorem fitted_zero (s : Sign) {e : ℤ} (he : -1074 ≤ e) : fitted s 0 e = .zero s := by
  have hshift : (max (((0 : ℕ).log2 : ℤ) + e - 52) (-1074) - e).toNat = 0 := by
    rw [Nat.log2_zero]
    omega
  unfold fitted
  simp only [UnpackedFloat.shiftToTargetExponent, targetExponent_eq,
    UnpackedFloat.shiftToExponent, hshift]
  exact dif_pos rfl

theorem nearestSize_zero : nearestSize 0 = zero := by
  have hsteps : steps 0 = 0 := by
    rw [steps, zero_div]
    exact_mod_cast halfEven_natCast 0
  rw [nearestSize, hsteps, fitted_zero _ (place_ge 0), zero]

/-- What is a double already is the nearest one. -/
theorem IsCanonical.nearestSize {m : ℕ} {e : ℤ} (h : IsCanonical m e) :
    Double.nearestSize (m * 2 ^ e) = ofParts .positive m e h.pos := by
  rw [Double.nearestSize, h.steps, h.place, h.fitted, ofParts]

/-- A number with all digits before its place is rounded to a mantissa with all digits,
    at its place or at the next one. -/
theorem exists_fitted {q : ℚ} (h : 2 ^ 52 * 2 ^ place q ≤ q) (s : Sign) :
    ∃ m e, ∃ hm : 0 < m, fitted s (steps q) (place q) = .finite s m e hm ∧
      2 ^ 52 ≤ m ∧ m < 2 ^ 53 ∧
      (m = steps q ∧ e = place q ∨ steps q = 2 ^ 53 ∧ m = 2 ^ 52 ∧ e = place q + 1) := by
  have hpow : (0 : ℚ) < 2 ^ place q := zpow_pos two_pos _
  have hq : 0 < q := lt_of_lt_of_le (mul_pos (by norm_num) hpow) h
  have hleast := place_ge q
  have hle : 2 ^ 52 ≤ steps q := le_halfEven (by
    rw [le_div_iff₀ hpow]
    exact_mod_cast h)
  have hlt : steps q ≤ 2 ^ 53 := halfEven_le (div_pos hq hpow).le (by
    rw [div_le_iff₀ hpow]
    have hlog : Int.log 2 q + 1 ≤ ((53 : ℕ) : ℤ) + place q := by
      rw [place]
      push_cast
      omega
    have hbound := Int.lt_zpow_succ_log_self (b := 2) (by decide) q
    calc q ≤ (2 : ℚ) ^ (Int.log 2 q + 1) := by exact_mod_cast hbound.le
      _ ≤ 2 ^ (((53 : ℕ) : ℤ) + place q) := zpow_le_zpow_right₀ one_le_two hlog
      _ = _ := by
        rw [zpow_add₀ two_ne_zero, zpow_natCast]
        push_cast
        rfl)
  rcases eq_or_lt_of_le hlt with heq | hlt
  · -- One digit too many: the mantissa is a power of two, and the last digit is zero.
    rw [heq, fitted_eq s (k := 1) (by rw [Nat.log2_two_pow]; omega)
      (Or.inr (by rw [Nat.log2_two_pow]; omega)) (by decide)]
    exact ⟨_, _, _, rfl, by decide, by decide, Or.inr ⟨rfl, rfl, by omega⟩⟩
  · have hlog : (steps q).log2 = 52 := (Nat.log2_eq_iff (by omega)).mpr ⟨hle, hlt⟩
    rw [fitted_eq s (k := 0) (by rw [hlog]; omega) (Or.inl rfl) (by omega)]
    exact ⟨_, _, _, rfl, by omega, by omega, Or.inl ⟨by omega, by omega⟩⟩

/-- What has too large an exponent is packed as infinity. -/
theorem pack_of_large (s : Sign) {m : ℕ} {e : ℤ} (h : 0 < m) (he : 972 ≤ e) :
    Float.Model.pack (.finite s m e h) = Float.Model.pack (.infinity s) := by
  have hover : 2 ^ Format.binary64.exponentBits ≤ (e + Format.binary64.exponentBias
      + Format.binary64.mantissaBitsWithoutImplicit).toNat + 1 := by
    show 2048 ≤ (e + (1023 : ℤ) + (52 : ℤ)).toNat + 1
    omega
  have hpack : UnpackedFloat.pack .binary64 (.finite s m e h)
      = UnpackedFloat.packedInfinity .binary64 s := by
    rw [UnpackedFloat.pack]
    exact if_pos hover
  unfold Float.Model.pack
  simp only [hpack]
  rfl

/-- A number with all digits before its place is rounded to a double with all digits, or
    its place is beyond that of the doubles, if need be after one more digit. -/
theorem nearestSize_full {q : ℚ} (h : 2 ^ 52 * 2 ^ place q ≤ q) :
    (∃ m e, ∃ hm : IsCanonical m e, nearestSize q = ofParts .positive m e hm.pos ∧
        2 ^ 52 ≤ m ∧ place q ≤ e ∧ (m * 2 ^ e : ℚ) = steps q * 2 ^ place q) ∨
      (nearestSize q = infinity ∧ (971 < place q ∨ place q = 971 ∧ steps q = 2 ^ 53)) := by
  rcases exists_fitted h .positive with ⟨m, e, hm, hfitted, hfull, hlt, he⟩
  have hleast := place_ge q
  by_cases hgreatest : e ≤ 971
  · refine Or.inl ⟨m, e, ⟨hm, hlt, by omega, hgreatest, Or.inl hfull⟩, ?_, hfull, by omega, ?_⟩
    · rw [nearestSize, hfitted, ofParts]
    · rcases he with ⟨rfl, rfl⟩ | ⟨hsteps, rfl, rfl⟩
      · rfl
      · rw [hsteps, zpow_add_one₀ two_ne_zero]
        push_cast
        ring
  · refine Or.inr ⟨?_, by omega⟩
    rw [nearestSize, hfitted, pack_of_large .positive hm (by omega), infinity]

/-- The place of a number is above the least one only if all digits are before it. -/
theorem full_or_place_eq {q : ℚ} (hq : 0 < q) :
    2 ^ 52 * 2 ^ place q ≤ q ∨ q < 2 ^ 52 * 2 ^ place q ∧ place q = -1074 := by
  by_cases hplace : place q = Int.log 2 q - 52
  · have hbound := Int.zpow_log_le_self (b := 2) (by decide) hq
    rw [← zpow_natCast, ← zpow_add₀ two_ne_zero, hplace,
      show ((52 : ℕ) : ℤ) + (Int.log 2 q - 52) = Int.log 2 q by push_cast; omega]
    exact Or.inl (by exact_mod_cast hbound)
  · have hleast : place q = -1074 := by
      rw [place] at hplace ⊢
      omega
    rcases le_or_gt (2 ^ 52 * 2 ^ place q) q with hle | hlt
    · exact Or.inl hle
    · exact Or.inr ⟨hlt, hleast⟩

/-- A number with fewer digits before the least place is rounded to zero or to a double. -/
theorem nearestSize_of_least {q : ℚ} (hq : 0 < q) (hlt : q < 2 ^ 52 * 2 ^ place q)
    (hleast : place q = -1074) :
    nearestSize q = zero ∧ steps q = 0 ∨
      ∃ hm : IsCanonical (steps q) (place q),
        nearestSize q = ofParts .positive (steps q) (place q) hm.pos := by
  have hpow : (0 : ℚ) < 2 ^ place q := zpow_pos two_pos _
  have hle : steps q ≤ 2 ^ 52 := halfEven_le (div_pos hq hpow).le (by
    rw [div_le_iff₀ hpow]
    exact_mod_cast hlt.le)
  rw [nearestSize]
  by_cases hzero : steps q = 0
  · rw [hzero, fitted_zero _ (place_ge q)]
    exact Or.inl ⟨rfl, rfl⟩
  · have hcanonical : IsCanonical (steps q) (place q) :=
      ⟨Nat.pos_of_ne_zero hzero, by omega, by omega, by omega, Or.inr hleast⟩
    rw [hcanonical.fitted]
    exact Or.inr ⟨hcanonical, rfl⟩

/-- A number that is not negative is rounded to zero, to a double, or to infinity. -/
theorem nearestSize_cases {q : ℚ} (hq : 0 ≤ q) :
    nearestSize q = zero ∨
      (∃ m e, ∃ hm : IsCanonical m e, nearestSize q = ofParts .positive m e hm.pos) ∨
      nearestSize q = infinity := by
  rcases eq_or_lt_of_le hq with rfl | hpos
  · exact Or.inl nearestSize_zero
  rcases full_or_place_eq hpos with hfull | ⟨hlt, hleast⟩
  · rcases nearestSize_full hfull with ⟨m, e, hm, heq, _⟩ | ⟨hinf, _⟩
    · exact Or.inr (Or.inl ⟨m, e, hm, heq⟩)
    · exact Or.inr (Or.inr hinf)
  · rcases nearestSize_of_least hpos hlt hleast with ⟨hzero, _⟩ | ⟨hm, heq⟩
    · exact Or.inl hzero
    · exact Or.inr (Or.inl ⟨_, _, hm, heq⟩)

/-- Far beyond the doubles there is infinity. -/
theorem nearestSize_of_large {q : ℚ} (h : 2 ^ (1024 : ℤ) ≤ q) : nearestSize q = infinity := by
  have hq : 0 < q := lt_of_lt_of_le (zpow_pos two_pos _) h
  have hplace : 972 ≤ place q := le_place h
  rcases full_or_place_eq hq with hfull | ⟨_, hleast⟩
  · rcases nearestSize_full hfull with ⟨m, e, hm, _, _, he, _⟩ | hinf
    · have hgreatest := hm.greatest
      omega
    · exact hinf.1
  · omega

/-- Far below the doubles there is zero. -/
theorem nearestSize_of_small {q : ℚ} (hq : 0 < q) (h : q < 2 ^ (-1075 : ℤ)) :
    nearestSize q = zero := by
  have hpow : (0 : ℚ) < 2 ^ (-1074 : ℤ) := zpow_pos two_pos _
  have hhalf : q < 2 ^ (-1074 : ℤ) / 2 := by
    rwa [show (-1075 : ℤ) = -1074 - 1 from rfl, zpow_sub_one₀ two_ne_zero,
      ← div_eq_mul_inv] at h
  have hplace : place q = -1074 := by
    refine place_eq hq ?_ (Or.inr rfl) le_rfl
    generalize (2 : ℚ) ^ (-1074 : ℤ) = p at hpow hhalf
    linarith
  -- In units of the least double, it is less than a half.
  have hsteps : steps q = 0 := by
    rw [steps, hplace]
    generalize (2 : ℚ) ^ (-1074 : ℤ) = p at hpow hhalf
    have hr : 0 < q / p := div_pos hq hpow
    have hlt : q / p < 1 / 2 := by
      rw [div_lt_iff₀ hpow]
      linarith
    refine halfEven_eq ?_ ?_ (Or.inl rfl) hr.le
    · push_cast
      linarith
    · push_cast
      linarith
  rw [nearestSize, hsteps, fitted_zero _ (place_ge q), zero]

/-- A product is rounded once. -/
theorem mul_finite_eq {m₁ m₂ : ℕ} {e₁ e₂ : ℤ} (h₁ : 0 < m₁) (h₂ : 0 < m₂)
    (he : e₁ + e₂ ≤ place (m₁ * 2 ^ e₁ * (m₂ * 2 ^ e₂))) :
    UnpackedFloat.mul .binary64 (.finite .positive m₁ e₁ h₁) (.finite .positive m₂ e₂ h₂)
      = fitted .positive (steps (m₁ * 2 ^ e₁ * (m₂ * 2 ^ e₂)))
        (place (m₁ * 2 ^ e₁ * (m₂ * 2 ^ e₂))) := by
  have hq : (m₁ * 2 ^ e₁ * (m₂ * 2 ^ e₂) : ℚ) = (m₁ * m₂ : ℕ) * 2 ^ (e₁ + e₂) := by
    rw [zpow_add₀ two_ne_zero]
    push_cast
    ring
  have hpow : (0 : ℚ) < 2 ^ (e₁ + e₂) := zpow_pos two_pos _
  rw [hq] at he ⊢
  refine roundWithAccuracy_eq (mul_pos (Nat.cast_pos.mpr (Nat.mul_pos h₁ h₂)) hpow) ?_ he
  rw [mul_div_cancel_right₀ _ hpow.ne']
  exact Stands.ofMantissa _

/-- The logarithm of a quotient, from the lengths of its parts. -/
theorem log2_sub_le {m₁ m₂ : ℕ} (e₁ e₂ : ℤ) (h₁ : 0 < m₁) (h₂ : 0 < m₂) :
    (m₁.log2 : ℤ) + e₁ - (m₂.log2 + e₂) - 1 ≤
      Int.log 2 ((m₁ : ℚ) * 2 ^ e₁ / (m₂ * 2 ^ e₂)) := by
  have hpow : ∀ e : ℤ, (0 : ℚ) < 2 ^ e := fun e => zpow_pos two_pos e
  have hm₁ : (2 : ℚ) ^ (m₁.log2 : ℤ) ≤ m₁ := by
    rw [zpow_natCast]
    exact_mod_cast Nat.log2_self_le h₁.ne'
  have hm₂ : (m₂ : ℚ) ≤ 2 ^ ((m₂.log2 : ℤ) + 1) := by
    have hlt : m₂ < 2 ^ (m₂.log2 + 1) := Nat.lt_log2_self
    exact_mod_cast hlt.le
  have hdenominator : (0 : ℚ) < m₂ * 2 ^ e₂ := mul_pos (Nat.cast_pos.mpr h₂) (hpow e₂)
  refine (Int.zpow_le_iff_le_log (b := 2) (by decide)
    (div_pos (mul_pos (Nat.cast_pos.mpr h₁) (hpow e₁)) hdenominator)).mp ?_
  -- The denominator is less than the power of two behind it.
  rw [le_div_iff₀ hdenominator]
  calc ((2 : ℕ) : ℚ) ^ ((m₁.log2 : ℤ) + e₁ - (m₂.log2 + e₂) - 1) * (m₂ * 2 ^ e₂)
      ≤ (2 : ℚ) ^ ((m₁.log2 : ℤ) + e₁ - (m₂.log2 + e₂) - 1)
          * (2 ^ ((m₂.log2 : ℤ) + 1) * 2 ^ e₂) := by
        push_cast
        exact mul_le_mul_of_nonneg_left (mul_le_mul_of_nonneg_right hm₂ (hpow e₂).le) (hpow _).le
    _ = 2 ^ (m₁.log2 : ℤ) * 2 ^ e₁ := by
        rw [← zpow_add₀ two_ne_zero, ← zpow_add₀ two_ne_zero, ← zpow_add₀ two_ne_zero]
        congr 1
        omega
    _ ≤ m₁ * 2 ^ e₁ := mul_le_mul_of_nonneg_right hm₁ (hpow e₁).le

/-- A quotient is rounded once. -/
theorem div_finite_eq {m₁ m₂ : ℕ} {e₁ e₂ : ℤ} (h₁ : 0 < m₁) (h₂ : 0 < m₂) :
    UnpackedFloat.div .binary64 (.finite .positive m₁ e₁ h₁) (.finite .positive m₂ e₂ h₂)
      = fitted .positive (steps (m₁ * 2 ^ e₁ / (m₂ * 2 ^ e₂)))
        (place (m₁ * 2 ^ e₁ / (m₂ * 2 ^ e₂))) := by
  have hpow : ∀ e : ℤ, (0 : ℚ) < 2 ^ e := fun e => zpow_pos two_pos e
  have hlog := log2_sub_le e₁ e₂ h₁ h₂
  -- The quotient is formed with so many digits that none is missing at its place.
  have htarget : min (e₁ - e₂) (Format.binary64.targetExponent
      (totalExponent m₁ e₁ - totalExponent m₂ e₂))
        = min (e₁ - e₂) (max ((m₁.log2 : ℤ) + e₁ - (m₂.log2 + e₂) - 53) (-1074)) := by
    show min (e₁ - e₂) (max (((m₁.log2 : ℤ) + 1 + e₁ - (m₂.log2 + 1 + e₂)) - (53 : ℤ)) (-1074)) = _
    congr 2
    omega
  unfold UnpackedFloat.div UnpackedFloat.divCore
  simp only [htarget]
  generalize ht : min (e₁ - e₂) (max ((m₁.log2 : ℤ) + e₁ - (m₂.log2 + e₂) - 53) (-1074)) = t
  have hshift : ((e₁ - e₂ - t).toNat : ℤ) = e₁ - e₂ - t := by omega
  have hquotient : (m₁ * 2 ^ e₁ / (m₂ * 2 ^ e₂) : ℚ) / 2 ^ t
      = (m₁ <<< (e₁ - e₂ - t).toNat : ℕ) / m₂ := by
    rw [Nat.shiftLeft_eq]
    push_cast
    rw [← zpow_natCast, hshift, zpow_sub₀ two_ne_zero, zpow_sub₀ two_ne_zero]
    have := (hpow e₂).ne'
    have := (hpow t).ne'
    have : (m₂ : ℚ) ≠ 0 := Nat.cast_ne_zero.mpr h₂.ne'
    field_simp
  refine roundWithAccuracy_eq ?_ ?_ ?_
  · exact div_pos (mul_pos (Nat.cast_pos.mpr h₁) (hpow e₁))
      (mul_pos (Nat.cast_pos.mpr h₂) (hpow e₂))
  · rw [hquotient]
    exact Stands.ofQuotient _ h₂
  · rw [place]
    omega

theorem ten_zpow (e : ℤ) : (10 : ℚ) ^ e = 2 ^ e * 5 ^ e := by
  rw [← mul_zpow]
  norm_num

section Scientific

variable {m : ℕ} {e : ℤ}

/-- A great power of ten takes a number beyond the doubles. -/
theorem two_zpow_le (hpos : 0 < m) (he : 2048 < e) : (2 : ℚ) ^ (1024 : ℤ) ≤ m * 10 ^ e := by
  have hone : (1 : ℚ) ≤ m := by exact_mod_cast hpos
  calc (2 : ℚ) ^ (1024 : ℤ) ≤ 2 ^ e := zpow_le_zpow_right₀ one_le_two (by omega)
    _ ≤ 10 ^ e := by
      rw [ten_zpow]
      exact le_mul_of_one_le_right (zpow_pos two_pos e).le (one_le_zpow₀ (by norm_num) (by omega))
    _ ≤ m * 10 ^ e := le_mul_of_one_le_left (zpow_pos (by norm_num) e).le hone

/-- A power of ten that is small against the length of a number takes it below the
    doubles. -/
theorem lt_two_zpow (he : e < -(2048 + (m.log2 : ℤ))) : (m : ℚ) * 10 ^ e < 2 ^ (-1075 : ℤ) := by
  have hlt : (m : ℚ) < 2 ^ ((m.log2 : ℤ) + 1) := by
    have hnat : m < 2 ^ (m.log2 + 1) := Nat.lt_log2_self
    exact_mod_cast hnat
  have htwo : ∀ e : ℤ, (0 : ℚ) < 2 ^ e := fun e => zpow_pos two_pos e
  calc (m : ℚ) * 10 ^ e < 2 ^ ((m.log2 : ℤ) + 1) * 10 ^ e :=
      mul_lt_mul_of_pos_right hlt (zpow_pos (by norm_num) e)
    _ ≤ 2 ^ ((m.log2 : ℤ) + 1) * 2 ^ e := by
      refine mul_le_mul_of_nonneg_left ?_ (htwo _).le
      rw [ten_zpow]
      exact mul_le_of_le_one_right (htwo e).le (zpow_le_one_of_nonpos₀ (by norm_num) (by omega))
    _ = 2 ^ ((m.log2 : ℤ) + 1 + e) := (zpow_add₀ two_ne_zero _ _).symm
    _ ≤ 2 ^ (-1075 : ℤ) := zpow_le_zpow_right₀ one_le_two (by omega)

/-- The product with a power of ten. It is a whole number, with 53 zeros behind its
    digits. -/
theorem mul_ten_pow_eq (hpos : 0 < m) (he : 0 ≤ e) (h₁ : 0 < m <<< 53) (h₂ : 0 < 10 ^ e.toNat) :
    UnpackedFloat.mul .binary64 (.finite .positive (m <<< 53) (-53) h₁)
        (.finite .positive (10 ^ e.toNat) 0 h₂)
      = fitted .positive (steps (m * 10 ^ e)) (place (m * 10 ^ e)) := by
  have hvalue : ((m <<< 53 : ℕ) : ℚ) * 2 ^ (-53 : ℤ) * ((10 ^ e.toNat : ℕ) * 2 ^ (0 : ℤ))
      = m * 10 ^ e := by
    rw [Nat.shiftLeft_eq, Nat.cast_mul, Nat.cast_pow, Nat.cast_pow, Nat.cast_two,
      Nat.cast_ofNat, zpow_zero, mul_one, ← zpow_natCast 10, Int.toNat_of_nonneg he,
      show (-53 : ℤ) = -((53 : ℕ) : ℤ) from rfl, zpow_neg, zpow_natCast,
      mul_inv_cancel_right₀ (pow_ne_zero _ two_ne_zero)]
  -- A whole number that is not zero is no less than one.
  have hplace : (-53 : ℤ) + 0 ≤ place (m * 10 ^ e) := by
    have hge : (1 : ℚ) ≤ m * 10 ^ e := one_le_mul_of_one_le_of_one_le (by exact_mod_cast hpos)
      (one_le_zpow₀ (by norm_num) he)
    exact le_place ((zpow_le_one_of_nonpos₀ one_le_two (by decide)).trans hge)
  have hmul := @mul_finite_eq (m <<< 53) (10 ^ e.toNat) (-53) 0 h₁ h₂
    (by rw [hvalue]; exact hplace)
  rwa [hvalue] at hmul

/-- The quotient by a power of ten. -/
theorem div_ten_pow_eq (hpos : 0 < m) (he : e ≤ 0) (h : 0 < 10 ^ (-e).toNat) :
    UnpackedFloat.div .binary64 (.finite .positive m 0 hpos)
        (.finite .positive (10 ^ (-e).toNat) 0 h)
      = fitted .positive (steps (m * 10 ^ e)) (place (m * 10 ^ e)) := by
  have hvalue : ((m : ℚ) * 2 ^ (0 : ℤ)) / ((10 ^ (-e).toNat : ℕ) * 2 ^ (0 : ℤ)) = m * 10 ^ e := by
    rw [Nat.cast_pow, Nat.cast_ofNat, zpow_zero, mul_one, mul_one, ← zpow_natCast,
      Int.toNat_of_nonneg (by omega), zpow_neg, div_inv_eq_mul]
  have hdiv := @div_finite_eq m (10 ^ (-e).toNat) 0 0 hpos h
  rwa [hvalue] at hdiv

end Scientific

/-- The decimal algorithm of the machine rounds the number that it is given. -/
theorem pack_ofScientific (m : ℕ) (e : ℤ) :
    Float.ofModel (.pack (UnpackedFloat.ofScientific .binary64 m e))
      = nearestSize (m * 10 ^ e) := by
  unfold UnpackedFloat.ofScientific
  by_cases hm : m = 0
  · rw [dif_pos hm, hm, Nat.cast_zero, zero_mul, nearestSize_zero, zero]
  rw [dif_neg hm]
  have hpos : 0 < m := Nat.pos_of_ne_zero hm
  show Float.ofModel (.pack (if e > 2048 then _ else if e < -(2048 + (m.log2 : ℤ)) then _ else _))
    = _
  -- Outside of the range of the doubles, the algorithm does not compute anything.
  by_cases hlarge : e > 2048
  · rw [if_pos hlarge]
    exact (nearestSize_of_large (two_zpow_le hpos hlarge)).symm
  rw [if_neg hlarge]
  by_cases hsmall : e < -(2048 + (m.log2 : ℤ))
  · have hq : (0 : ℚ) < m * 10 ^ e := mul_pos (Nat.cast_pos.mpr hpos) (zpow_pos (by norm_num) e)
    rw [if_pos hsmall, nearestSize_of_small hq (lt_two_zpow hsmall), zero]
  rw [if_neg hsmall, nearestSize]
  by_cases hsign : 0 ≤ e
  · rw [if_pos hsign]
    exact congrArg (fun u => Float.ofModel (.pack u)) (mul_ten_pow_eq hpos hsign _ _)
  · rw [if_neg hsign]
    exact congrArg (fun u => Float.ofModel (.pack u)) (div_ten_pow_eq hpos (by omega) _)

/-- Rounding what is given without a loss, with too many digits or too few. -/
theorem round_eq (s : Sign) {m : ℕ} (e : ℤ) (hm : 0 < m) :
    UnpackedFloat.round .binary64 s m e = fitted s (steps (m * 2 ^ e)) (place (m * 2 ^ e)) := by
  have hpow : (0 : ℚ) < 2 ^ e := zpow_pos two_pos e
  have hq : (0 : ℚ) < m * 2 ^ e := mul_pos (Nat.cast_pos.mpr hm) hpow
  have hlog : Int.log 2 ((m : ℚ) * 2 ^ e) = m.log2 + e := by
    have hle : (2 : ℚ) ^ m.log2 ≤ m := by exact_mod_cast Nat.log2_self_le hm.ne'
    have hlt : (m : ℚ) < 2 ^ (m.log2 + 1) := by
      have hnat : m < 2 ^ (m.log2 + 1) := Nat.lt_log2_self
      exact_mod_cast hnat
    refine log_eq ?_ ?_
    · rw [zpow_add₀ two_ne_zero, zpow_natCast]
      exact mul_le_mul_of_nonneg_right hle hpow.le
    · rw [add_right_comm, zpow_add₀ two_ne_zero]
      exact mul_lt_mul_of_pos_right (by exact_mod_cast hlt) hpow
  have htarget : Format.binary64.targetExponent (totalExponent m e) = place (m * 2 ^ e) := by
    rw [targetExponent_eq, place, hlog]
  unfold UnpackedFloat.round UnpackedFloat.decreaseExponent
  simp only [htarget]
  refine roundWithAccuracy_eq hq ?_ (by omega)
  -- What is added to the mantissa is taken off the exponent.
  have hvalue : (m * 2 ^ e : ℚ) / 2 ^ (e - ((e - place (m * 2 ^ e)).toNat : ℤ))
      = (m <<< (e - place (m * 2 ^ e)).toNat : ℕ) := by
    rw [Nat.shiftLeft_eq, zpow_sub₀ two_ne_zero, zpow_natCast]
    push_cast
    field_simp
  rw [hvalue]
  exact Stands.ofMantissa _

/-- A machine word is turned into the double nearest to it. -/
theorem toFloat_eq {n : ℕ} (h : n < 2 ^ 64) : n.toUInt64.toFloat = nearestSize n := by
  have hword : n.toUInt64.toNat = n := by
    show n % 2 ^ 64 = n
    omega
  show Float.ofModel
    (.pack (UnpackedFloat.normalize .binary64 (n.toUInt64.toNat : ℤ) 0 .positive)) = _
  rw [hword]
  by_cases hzero : n = 0
  · rw [hzero, show ((0 : ℕ) : ℚ) = 0 from Nat.cast_zero, nearestSize_zero]
    rfl
  · have hpos : 0 < n := Nat.pos_of_ne_zero hzero
    -- The word is rounded as a mantissa without an exponent.
    have hcompare : compare (n : ℤ) 0 = .gt := Int.compare_eq_gt.mpr (by omega)
    have hround := round_eq .positive 0 hpos
    rw [zpow_zero, mul_one] at hround
    unfold UnpackedFloat.normalize
    rw [hcompare]
    simp only [Int.toNat_natCast]
    rw [hround, nearestSize]

/-- A whole number with at most 53 digits is a double. -/
theorem exists_canonical_natCast {n : ℕ} (hpos : 0 < n) (hlt : n < 2 ^ 53) :
    ∃ m e, IsCanonical m e ∧ 2 ^ 52 ≤ m ∧ (m * 2 ^ e : ℚ) = n := by
  have hlog : n.log2 ≤ 52 := by
    have := (Nat.log2_lt hpos.ne').mpr hlt
    omega
  have hlow := Nat.log2_self_le hpos.ne'
  have hhigh : n < 2 ^ (n.log2 + 1) := Nat.lt_log2_self
  -- Digits that are missing at the end are filled up with zeros.
  have hle : 2 ^ 52 ≤ n * 2 ^ (52 - n.log2) := by
    calc 2 ^ 52 = 2 ^ n.log2 * 2 ^ (52 - n.log2) := by
          rw [← Nat.pow_add, Nat.add_sub_cancel' hlog]
      _ ≤ n * 2 ^ (52 - n.log2) := Nat.mul_le_mul_right _ hlow
  have hless : n * 2 ^ (52 - n.log2) < 2 ^ 53 := by
    calc n * 2 ^ (52 - n.log2) < 2 ^ (n.log2 + 1) * 2 ^ (52 - n.log2) :=
          Nat.mul_lt_mul_of_pos_right hhigh (Nat.two_pow_pos _)
      _ = 2 ^ 53 := by
          rw [← Nat.pow_add]
          congr 1
          omega
  refine ⟨n * 2 ^ (52 - n.log2), -((52 - n.log2 : ℕ) : ℤ), ⟨by omega, hless, by omega, by omega,
    Or.inl hle⟩, hle, ?_⟩
  rw [Nat.cast_mul, Nat.cast_pow, Nat.cast_two, zpow_neg, zpow_natCast,
    mul_inv_cancel_right₀ (pow_ne_zero _ two_ne_zero)]

/-- Whether an unpacked number is a power of ten. -/
def isPowerOfTen (u : UnpackedFloat) (k : ℕ) : Bool :=
  match u with
  | .finite .positive m e _ => m * 2 ^ e.toNat = 10 ^ k * 2 ^ (-e).toNat
  | _ => false

theorem exists_of_isPowerOfTen {u : UnpackedFloat} {k : ℕ} (h : isPowerOfTen u k = true) :
    ∃ m e, ∃ hm : 0 < m, u = .finite .positive m e hm ∧ (m * 2 ^ e : ℚ) = 10 ^ k := by
  unfold isPowerOfTen at h
  split at h
  · rename_i m e hm
    refine ⟨m, e, hm, rfl, ?_⟩
    have hnat : m * 2 ^ e.toNat = 10 ^ k * 2 ^ (-e).toNat := of_decide_eq_true h
    have hcast : (m : ℚ) * 2 ^ (e.toNat : ℤ) = 10 ^ k * 2 ^ ((-e).toNat : ℤ) := by
      exact_mod_cast hnat
    have hsplit : (2 : ℚ) ^ e = 2 ^ (e.toNat : ℤ) / 2 ^ ((-e).toNat : ℤ) := by
      rw [← zpow_sub₀ two_ne_zero]
      congr 1
      omega
    rw [hsplit, ← mul_div_assoc, hcast, mul_div_cancel_right₀ _ (zpow_pos two_pos _).ne']
  · cases h

/-- The powers of ten that are kept as doubles are what they should be. -/
theorem isPowerOfTen_unpack : ∀ k (h : k < Float.exactlyRepresentablePowersOfTen.size),
    isPowerOfTen Float.exactlyRepresentablePowersOfTen[k].toModel.unpack k = true := by
  decide +kernel

/-- A whole number with at most 53 digits is unpacked without a loss. -/
theorem unpack_toFloat {n : ℕ} (hpos : 0 < n) (hlt : n < 2 ^ 53) :
    ∃ m e, ∃ hm : 0 < m, n.toUInt64.toFloat.toModel.unpack = .finite .positive m e hm ∧
      2 ^ 52 ≤ m ∧ (m * 2 ^ e : ℚ) = n := by
  rcases exists_canonical_natCast hpos hlt with ⟨m, e, hcanonical, hfull, hvalue⟩
  refine ⟨m, e, hcanonical.pos, ?_, hfull, hvalue⟩
  rw [toFloat_eq (by omega), ← hvalue, hcanonical.nearestSize, hcanonical.unpack_ofParts]

/-- With few digits and a small power of ten, one operation on doubles rounds. -/
theorem mul_powerOfTen {n k : ℕ} {p : Float} (hn : n < 2 ^ 53)
    (hp : isPowerOfTen p.toModel.unpack k = true) :
    n.toUInt64.toFloat * p = nearestSize (n * 10 ^ k) := by
  rcases exists_of_isPowerOfTen hp with ⟨m₂, e₂, h₂, hpower, hten⟩
  show Float.ofModel (.pack (UnpackedFloat.mul .binary64 _ p.toModel.unpack)) = _
  by_cases hzero : n = 0
  · rw [hzero, show ((0 : ℕ) : ℚ) = 0 from Nat.cast_zero, zero_mul, nearestSize_zero, hpower]
    rfl
  · rcases unpack_toFloat (Nat.pos_of_ne_zero hzero) hn with ⟨m₁, e₁, h₁, hunpack, hfull, hvalue⟩
    -- The product of the mantissas has no less than 53 digits, so none is missing.
    have hplace : e₁ + e₂ ≤ place (m₁ * 2 ^ e₁ * (m₂ * 2 ^ e₂)) := by
      have hprod : (2 : ℚ) ^ ((52 : ℕ) : ℤ) * 2 ^ (e₁ + e₂) ≤ m₁ * 2 ^ e₁ * (m₂ * 2 ^ e₂) := by
        have hmantissa : (2 : ℚ) ^ ((52 : ℕ) : ℤ) ≤ m₁ * m₂ := by
          rw [zpow_natCast]
          exact_mod_cast hfull.trans (Nat.le_mul_of_pos_right m₁ h₂)
        have hpow : (0 : ℚ) < 2 ^ (e₁ + e₂) := zpow_pos two_pos _
        calc (2 : ℚ) ^ ((52 : ℕ) : ℤ) * 2 ^ (e₁ + e₂)
            ≤ m₁ * m₂ * 2 ^ (e₁ + e₂) := mul_le_mul_of_nonneg_right hmantissa hpow.le
          _ = m₁ * 2 ^ e₁ * (m₂ * 2 ^ e₂) := by
            rw [zpow_add₀ two_ne_zero]
            ring
      rw [← zpow_add₀ two_ne_zero] at hprod
      exact le_place hprod
    rw [hunpack, hpower, mul_finite_eq h₁ h₂ hplace, hvalue, hten, nearestSize]

theorem div_powerOfTen {n k : ℕ} {p : Float} (hn : n < 2 ^ 53)
    (hp : isPowerOfTen p.toModel.unpack k = true) :
    n.toUInt64.toFloat / p = nearestSize (n / 10 ^ k) := by
  rcases exists_of_isPowerOfTen hp with ⟨m₂, e₂, h₂, hpower, hten⟩
  show Float.ofModel (.pack (UnpackedFloat.div .binary64 _ p.toModel.unpack)) = _
  by_cases hzero : n = 0
  · rw [hzero, show ((0 : ℕ) : ℚ) = 0 from Nat.cast_zero, zero_div, nearestSize_zero, hpower]
    rfl
  · rcases unpack_toFloat (Nat.pos_of_ne_zero hzero) hn with ⟨m₁, e₁, h₁, hunpack, _, hvalue⟩
    rw [hunpack, hpower, div_finite_eq h₁ h₂, hvalue, hten, nearestSize]

/-- Digits with a power of ten are turned into the double nearest to the number. -/
theorem ofScientific_eq (m : ℕ) (s : Bool) (e : ℕ) :
    Float.ofScientific m s e = nearestSize (m * 10 ^ (if s then -(e : ℤ) else e)) := by
  unfold Float.ofScientific
  split
  · rename_i h
    have hsize : Float.exactlyRepresentablePowersOfTen.size = 23 := rfl
    have hp := isPowerOfTen_unpack e (by omega)
    cases s with
    | false =>
        rw [if_neg Bool.false_ne_true, if_neg Bool.false_ne_true, zpow_natCast]
        exact mul_powerOfTen h.1 hp
    | true =>
        rw [if_pos rfl, if_pos rfl, zpow_neg, zpow_natCast, ← div_eq_mul_inv]
        exact div_powerOfTen h.1 hp
  · cases s with
    | false => exact pack_ofScientific m e
    | true =>
        have hneg : (if true = true then -(e : ℤ) else e) = Int.negOfNat e := by
          rw [if_pos rfl]
          exact (Int.negOfNat_eq).symm
        rw [hneg]
        exact pack_ofScientific m (Int.negOfNat e)

end Double

/-- The double of a decimal is the one nearest to the number that it denotes. -/
theorem Decimal.toFloat_eq (d : Decimal) : d.toFloat = Double.nearestSize d.toRat := by
  rw [Decimal.toFloat, Double.ofScientific_eq, Decimal.toRat]
  congr 2
  by_cases h : d.exponent < 0
  · rw [decide_eq_true h, if_pos rfl]
    congr 1
    omega
  · rw [decide_eq_false h, if_neg Bool.false_ne_true]
    congr 1
    omega

end Spreadsheet
