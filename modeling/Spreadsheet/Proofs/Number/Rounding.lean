import Spreadsheet.Proofs.Number.Double

/-!
# Rounding to the Nearest Double

What the rounding of the machine computes, as a function of a rational number.

A number that is rounded comes as a mantissa with two more bits, which tell where in
the unit of the last digit it lies: on it, before the middle, in the middle or behind
(`Double.Stands`). Dropping a digit keeps this true of half the number, so whatever
was dropped, the bits at the end are those of the number at the place where the digits
end. Rounded there, a half to the even side, it is the mantissa of the result.

The place depends on the number only, not on the digits it came with. So two
computations that stand for one rational number are rounded to one double, however
many digits they carried along.

## Main definitions

* `Double.halfEven`: The nearest whole number, a half going to the even side.
* `Double.Stands`: A mantissa with its two bits stands for a rational number.
* `Double.place`, `Double.steps`: The exponent of the doubles around a number, and the
  number in units of that exponent.
* `Double.fitted`: A mantissa made to fit once more, after it was rounded.

## Theorems

* `Stands.shiftRight`: Dropping digits divides by a power of two.
* `Stands.roundedMantissa`: The bits decide how the number is rounded.
* `roundWithAccuracy_eq`: What is rounded is a rational number.
* `place_eq`: The place of a number between two powers of two.
-/

namespace Spreadsheet

open Float.Model
open Float.Model.UnpackedFloat (ExtendedMantissa Accuracy Sign)

namespace Double

/-- The nearest whole number, a half going to the even side. -/
def halfEven (r : ℚ) : ℕ :=
  let n := ⌊r⌋₊
  if r < n + 1 / 2 then n else if r = n + 1 / 2 then n + n % 2 else n + 1

/-- A mantissa with its two bits stands for a number, with one case for each place in
    the unit of the last digit. -/
inductive Stands : ExtendedMantissa → ℚ → Prop
  /-- The number is the mantissa. -/
  | exact (m : ℕ) : Stands ⟨m, false, false⟩ m
  | before {m : ℕ} {r : ℚ} (gt : m < r) (lt : r < m + 1 / 2) : Stands ⟨m, false, true⟩ r
  | middle (m : ℕ) : Stands ⟨m, true, false⟩ (m + 1 / 2)
  | behind {m : ℕ} {r : ℚ} (gt : m + 1 / 2 < r) (lt : r < m + 1) : Stands ⟨m, true, true⟩ r

namespace Stands

variable {em : ExtendedMantissa} {r : ℚ}

/-- The mantissa is the number cut off, and a bit is set if something was cut off. -/
theorem bounds (h : Stands em r) :
    (r = em.mantissa ∧ (em.roundBit || em.stickyBit) = false) ∨
      ((em.mantissa : ℚ) < r ∧ r < em.mantissa + 1 ∧ (em.roundBit || em.stickyBit) = true) := by
  cases h with
  | exact m => exact Or.inl ⟨rfl, rfl⟩
  | before gt lt => exact Or.inr ⟨gt, by linarith, rfl⟩
  | middle m => exact Or.inr ⟨by linarith, by linarith, rfl⟩
  | behind gt lt => exact Or.inr ⟨by linarith, lt, rfl⟩

theorem mantissa_eq (h : Stands em r) : em.mantissa = ⌊r⌋₊ := by
  have hle : (em.mantissa : ℚ) ≤ r ∧ r < em.mantissa + 1 := by
    rcases h.bounds with ⟨rfl, _⟩ | ⟨hgt, hlt, _⟩
    · exact ⟨le_refl _, lt_add_one _⟩
    · exact ⟨hgt.le, hlt⟩
  exact ((Nat.floor_eq_iff (le_trans (Nat.cast_nonneg _) hle.1)).mpr hle).symm

/-- Dropping one digit halves the number. -/
theorem shiftRightOne (h : Stands em r) : Stands em.shiftRightOne (r / 2) := by
  rcases em with ⟨m, round, sticky⟩
  have hbounds := h.bounds
  unfold ExtendedMantissa.shiftRightOne
  simp only at hbounds ⊢
  -- The digit that is dropped says on which side of the middle the number lies.
  rcases Nat.even_or_odd' m with ⟨a, rfl | rfl⟩
  · have hhalf : 2 * a / 2 = a := by omega
    have hround : (2 * a % 2 != 0) = false := by
      rw [Nat.mul_mod_right]
      rfl
    rw [hhalf, hround]
    push_cast at hbounds
    rcases hbounds with ⟨rfl, hflag⟩ | ⟨hgt, hlt, hflag⟩
    · rw [hflag, mul_div_cancel_left₀ _ two_ne_zero]
      exact .exact a
    · rw [hflag]
      exact .before (by linarith) (by linarith)
  · have hhalf : (2 * a + 1) / 2 = a := by omega
    have hround : ((2 * a + 1) % 2 != 0) = true := by
      rw [Nat.mul_add_mod]
      rfl
    rw [hhalf, hround]
    push_cast at hbounds
    rcases hbounds with ⟨rfl, hflag⟩ | ⟨hgt, hlt, hflag⟩
    · rw [hflag, add_div, mul_div_cancel_left₀ _ two_ne_zero]
      exact .middle a
    · rw [hflag]
      exact .behind (by linarith) (by linarith)

/-- Dropping digits divides by a power of two. -/
theorem shiftRight (h : Stands em r) (k : ℕ) : Stands (em >>> k) (r / 2 ^ k) := by
  induction k with
  | zero =>
      rw [pow_zero, div_one]
      exact h
  | succ k ih =>
      rw [pow_succ, ← div_div]
      exact ih.shiftRightOne

/-- The bits decide how the number is rounded. -/
theorem roundedMantissa (h : Stands em r) : em.roundedMantissa = halfEven r := by
  have hfloor := h.mantissa_eq
  rw [halfEven, ← hfloor]
  cases h with
  | exact m =>
      simp only
      rw [if_pos (by linarith)]
      rfl
  | before gt lt =>
      simp only
      rw [if_pos lt]
      rfl
  | middle m =>
      simp only [lt_irrefl, if_false, if_true]
      rfl
  | behind gt lt =>
      simp only
      rw [if_neg (by linarith), if_neg (by linarith)]
      rfl

/-- A mantissa with nothing cut off. -/
theorem ofMantissa (m : ℕ) : Stands (.ofMantissaAndAccuracy m .exact) m := .exact m

/-- A quotient cut off, with the accuracy that its remainder tells. -/
theorem ofQuotient (a : ℕ) {d : ℕ} (hd : 0 < d) :
    Stands (.ofMantissaAndAccuracy (a / d) (UnpackedFloat.accuracyOfFraction (a % d) d))
      (a / d) := by
  have hpos : (0 : ℚ) < d := Nat.cast_pos.mpr hd
  have hsplit : (a : ℚ) / d = (a / d : ℕ) + ((a % d : ℕ) : ℚ) / d := by
    rw [div_eq_iff hpos.ne', add_mul, div_mul_cancel₀ _ hpos.ne']
    exact_mod_cast (Nat.div_add_mod' a d).symm
  have hlt : ((a % d : ℕ) : ℚ) / d < 1 :=
    (div_lt_one hpos).mpr (Nat.cast_lt.mpr (Nat.mod_lt a hd))
  rw [hsplit, UnpackedFloat.accuracyOfFraction]
  generalize a / d = q
  generalize a % d = s at hlt
  by_cases hzero : s = 0
  · rw [if_pos hzero, hzero, Nat.cast_zero, zero_div, add_zero]
    exact .exact q
  · rw [if_neg hzero]
    have hs : 0 < (s : ℚ) / d := div_pos (Nat.cast_pos.mpr (Nat.pos_of_ne_zero hzero)) hpos
    -- The remainder tells on which side of the middle the quotient lies.
    cases hcompare : compare (2 * s) d with
    | lt =>
        have hcast : (2 * s : ℚ) < d := by exact_mod_cast Nat.compare_eq_lt.mp hcompare
        have hhalf : (s : ℚ) / d < 1 / 2 := by
          rw [div_lt_iff₀ hpos]
          linarith
        exact .before (by linarith) (by linarith)
    | eq =>
        have hcast : (2 * s : ℚ) = d := by exact_mod_cast Nat.compare_eq_eq.mp hcompare
        have hhalf : (s : ℚ) / d = 1 / 2 := by
          rw [div_eq_iff hpos.ne']
          linarith
        rw [hhalf]
        exact .middle q
    | gt =>
        have hcast : (d : ℚ) < 2 * s := by exact_mod_cast Nat.compare_eq_gt.mp hcompare
        have hhalf : 1 / 2 < (s : ℚ) / d := by
          rw [lt_div_iff₀ hpos]
          linarith
        exact .behind (by linarith) (by linarith)

end Stands

/-- The exponent of the doubles around a positive number. -/
def place (q : ℚ) : ℤ := max (Int.log 2 q - 52) (-1074)

/-- A positive number in units of its place, rounded. -/
def steps (q : ℚ) : ℕ := halfEven (q / 2 ^ place q)

/-- A mantissa with an exponent, made to fit by dropping digits. -/
def fitted (s : Sign) (m : ℕ) (e : ℤ) : UnpackedFloat :=
  let shifted := UnpackedFloat.shiftToTargetExponent .binary64 m e .exact
  if h : shifted.1.mantissa = 0 then .zero s
  else .finite s shifted.1.mantissa shifted.2 (Nat.pos_of_ne_zero h)

/-- Rounding has two stages, and the second one is to make the result fit. -/
theorem roundWithAccuracy_eq_fitted (s : Sign) (m : ℕ) (e : ℤ) (a : Accuracy) :
    UnpackedFloat.roundWithAccuracy .binary64 s m e a
      = fitted s (UnpackedFloat.shiftToTargetExponent .binary64 m e a).1.roundedMantissa
        (UnpackedFloat.shiftToTargetExponent .binary64 m e a).2 := rfl

theorem targetExponent_eq (m : ℕ) (e : ℤ) :
    Format.binary64.targetExponent (totalExponent m e) = max ((m.log2 : ℤ) + e - 52) (-1074) := by
  show max ((m.log2 : ℤ) + 1 + e - (53 : ℤ)) (-1074) = _
  congr 1
  omega

/-- Numbers between two powers of two have the first as their logarithm. -/
theorem log_eq {q : ℚ} {j : ℤ} (hle : (2 : ℚ) ^ j ≤ q) (hlt : q < 2 ^ (j + 1)) :
    Int.log 2 q = j := by
  have hq : 0 < q := lt_of_lt_of_le (zpow_pos two_pos j) hle
  have h₁ := (Int.zpow_le_iff_le_log (b := 2) (by decide) hq (x := j)).mp (by exact_mod_cast hle)
  have h₂ := (Int.lt_zpow_iff_log_lt (b := 2) (by decide) hq (x := j + 1)).mp
    (by exact_mod_cast hlt)
  omega

/-- From a power of two on, the place is no more than 52 digits below it. -/
theorem le_place {q : ℚ} {e : ℤ} (h : 2 ^ (52 + e) ≤ q) : e ≤ place q := by
  have hq : 0 < q := lt_of_lt_of_le (zpow_pos two_pos _) h
  have hlog := (Int.zpow_le_iff_le_log (b := 2) (by decide) hq (x := 52 + e)).mp
    (by exact_mod_cast h)
  rw [place]
  omega

/-- The digits that a mantissa keeps depend on the number it stands for only, if none
    of them is missing. -/
theorem targetExponent_eq_place {em : ExtendedMantissa} {q : ℚ} {e : ℤ} (hq : 0 < q)
    (h : Stands em (q / 2 ^ e)) (he : e ≤ place q) :
    Format.binary64.targetExponent (totalExponent em.mantissa e) = place q := by
  have hpow : (0 : ℚ) < 2 ^ e := zpow_pos two_pos e
  have hfloor := h.mantissa_eq
  rw [targetExponent_eq]
  by_cases hzero : em.mantissa = 0
  · -- The number is below one unit, so the place is the last one there is.
    have hlt : q < 2 ^ e := by
      rw [hzero, eq_comm, Nat.floor_eq_zero, div_lt_one hpow] at hfloor
      exact hfloor
    have hlog := (Int.lt_zpow_iff_log_lt (b := 2) (by decide) hq (x := e)).mp
      (by exact_mod_cast hlt)
    rw [place] at he ⊢
    rw [hzero, Nat.log2_zero]
    omega
  · have hone : 1 ≤ em.mantissa := Nat.one_le_iff_ne_zero.mpr hzero
    have hlog : Int.log 2 q = em.mantissa.log2 + e := by
      have hle := Nat.log2_self_le hzero
      have hlt : ⌊q / 2 ^ e⌋₊ < 2 ^ (em.mantissa.log2 + 1) := by
        rw [← hfloor]
        exact Nat.lt_log2_self
      rw [Nat.floor_lt (div_pos hq hpow).le, div_lt_iff₀ hpow] at hlt
      rw [hfloor, Nat.le_floor_iff (div_pos hq hpow).le, le_div_iff₀ hpow, ← hfloor] at hle
      push_cast at hle hlt
      refine log_eq ?_ ?_
      · rw [zpow_add₀ two_ne_zero, zpow_natCast]
        exact hle
      · rw [add_right_comm, zpow_add₀ two_ne_zero]
        exact_mod_cast hlt
    rw [place, hlog]

/-- What is rounded is a rational number: its mantissa and exponent are made to fit. -/
theorem roundWithAccuracy_eq {s : Sign} {m : ℕ} {e : ℤ} {a : Accuracy} {q : ℚ} (hq : 0 < q)
    (h : Stands (.ofMantissaAndAccuracy m a) (q / 2 ^ e)) (he : e ≤ place q) :
    UnpackedFloat.roundWithAccuracy .binary64 s m e a = fitted s (steps q) (place q) := by
  have hmantissa : (ExtendedMantissa.ofMantissaAndAccuracy m a).mantissa = m := by
    cases a with
    | exact => rfl
    | inexact o => cases o <;> rfl
  have htarget := targetExponent_eq_place hq h he
  rw [hmantissa] at htarget
  have hexponent : e + (place q - e).toNat = place q := by omega
  have hpow : (2 : ℚ) ^ place q = 2 ^ e * 2 ^ (place q - e).toNat := by
    rw [← zpow_natCast, ← zpow_add₀ two_ne_zero, hexponent]
  have hrounded := (h.shiftRight (place q - e).toNat).roundedMantissa
  rw [div_div, ← hpow] at hrounded
  rw [roundWithAccuracy_eq_fitted, UnpackedFloat.shiftToTargetExponent, htarget]
  simp only [UnpackedFloat.shiftToExponent]
  rw [hrounded, hexponent, steps]

/-- A whole number is rounded to itself. -/
theorem halfEven_natCast (n : ℕ) : halfEven n = n := (Stands.exact n).roundedMantissa.symm

/-- What is within a half of a whole number is rounded to it, a half only if the whole
    number is even. -/
theorem halfEven_eq {r : ℚ} {n : ℕ} (hlow : (n : ℚ) - 1 / 2 ≤ r) (hhigh : r ≤ n + 1 / 2)
    (hties : n % 2 = 0 ∨ (n : ℚ) - 1 / 2 < r ∧ r < n + 1 / 2) (hr : 0 ≤ r) : halfEven r = n := by
  rcases lt_trichotomy r n with hlt | rfl | hgt
  · -- The number is cut off to the whole number before.
    cases n with
    | zero =>
        rw [Nat.cast_zero] at hlt
        exact absurd hr (not_le.mpr hlt)
    | succ n =>
        push_cast at hlow hlt hties
        rcases eq_or_lt_of_le hlow with heq | hlow
        · have hodd : n % 2 = 1 := by
            rcases hties with heven | ⟨hties, _⟩
            · omega
            · exact absurd heq hties.ne
          have hmiddle : r = n + 1 / 2 := by linarith
          rw [hmiddle, ← (Stands.middle n).roundedMantissa]
          show n + n % 2 = n + 1
          rw [hodd]
        · exact (Stands.behind (by linarith) hlt).roundedMantissa.symm
  · exact halfEven_natCast n
  · rcases eq_or_lt_of_le hhigh with rfl | hhigh
    · have heven : n % 2 = 0 := by
        rcases hties with heven | ⟨_, hties⟩
        · exact heven
        · exact absurd hties (lt_irrefl _)
      rw [← (Stands.middle n).roundedMantissa]
      show n + n % 2 = n
      rw [heven, Nat.add_zero]
    · exact (Stands.before hgt hhigh).roundedMantissa.symm

/-- Rounding goes to one of the whole numbers next to the number. -/
theorem halfEven_eq_or (r : ℚ) : halfEven r = ⌊r⌋₊ ∨ halfEven r = ⌊r⌋₊ + 1 := by
  unfold halfEven
  simp only
  split
  · exact Or.inl rfl
  · split
    · omega
    · exact Or.inr rfl

/-- Rounding does not go past a whole number. -/
theorem le_halfEven {r : ℚ} {n : ℕ} (h : (n : ℚ) ≤ r) : n ≤ halfEven r := by
  have hfloor : n ≤ ⌊r⌋₊ := Nat.le_floor h
  rcases halfEven_eq_or r with heq | heq <;> omega

theorem halfEven_le {r : ℚ} {n : ℕ} (hr : 0 ≤ r) (h : r ≤ n) : halfEven r ≤ n := by
  rcases eq_or_lt_of_le h with rfl | hlt
  · exact (halfEven_natCast n).le
  · have hfloor : ⌊r⌋₊ < n := (Nat.floor_lt hr).mpr hlt
    rcases halfEven_eq_or r with heq | heq <;> omega

/-- Below the middle behind a whole number rounding does not go past it. -/
theorem halfEven_le_of_lt {r : ℚ} {n : ℕ} (hr : 0 ≤ r) (h : r < n + 1 / 2) : halfEven r ≤ n := by
  rcases le_or_gt r n with hle | hgt
  · exact halfEven_le hr hle
  · exact (halfEven_eq (by linarith) h.le (Or.inr ⟨by linarith, h⟩) hr).le

/-- The place of a number between two powers of two, or below the least ones. -/
theorem place_eq {q : ℚ} {e : ℤ} (hq : 0 < q) (hlt : q < 2 ^ 53 * 2 ^ e)
    (hge : 2 ^ 52 * 2 ^ e ≤ q ∨ e = -1074) (he : -1074 ≤ e) : place q = e := by
  have hpow : ∀ n : ℕ, (2 : ℚ) ^ n * 2 ^ e = 2 ^ ((n : ℤ) + e) := by
    intro n
    rw [zpow_add₀ two_ne_zero, zpow_natCast]
  rw [hpow] at hlt hge
  have hlog := (Int.lt_zpow_iff_log_lt (b := 2) (by decide) hq (x := ((53 : ℕ) : ℤ) + e)).mp
    (by exact_mod_cast hlt)
  have hle : e ≤ place q := by
    rcases hge with hge | rfl
    · exact le_place hge
    · exact le_max_right _ _
  rw [place] at hle ⊢
  omega

/-- A mantissa is made to fit by as many digits as it has too many. -/
theorem fitted_eq (s : Sign) {m k : ℕ} {e : ℤ} (hk : max ((m.log2 : ℤ) + e - 52) (-1074) ≤ e + k)
    (hk' : k = 0 ∨ max ((m.log2 : ℤ) + e - 52) (-1074) = e + k) (h : 0 < m / 2 ^ k) :
    fitted s m e = .finite s (m / 2 ^ k) (e + k) h := by
  have hshift : (max ((m.log2 : ℤ) + e - 52) (-1074) - e).toNat = k := by omega
  have hmantissa : (ExtendedMantissa.ofMantissaAndAccuracy m .exact >>> k).mantissa
      = m / 2 ^ k := by
    have hfloor := ((Stands.ofMantissa m).shiftRight k).mantissa_eq
    rw [hfloor, ← Nat.floor_div_eq_div (K := ℚ), Nat.cast_pow, Nat.cast_two]
  unfold fitted
  simp only [UnpackedFloat.shiftToTargetExponent, targetExponent_eq,
    UnpackedFloat.shiftToExponent, hshift, hmantissa]
  rw [dif_neg h.ne']

end Double

end Spreadsheet
