import Spreadsheet.Proofs.Number.Double
import Spreadsheet.Number.Shortest

/-!
# Shortest Decimals Keep the Point

A double that is not whole is never shown as a whole number.

Any decimal that reads back lies within half a step of the double, and there is no
whole number that near: the double itself is a number of steps and not whole. So
the decimals that are searched are not whole, and neither is the exact value, on
which the search falls back. Dropping the zeros at the end changes nothing about
this, and what is left has digits after the point.

## Main definitions

* `Decimal.IsWhole`: The decimal is a whole number, however it is written.

## Theorems

* `Decimal.isWhole_of_normalize`: A normalized decimal shows whether it is whole.
* `Shortest.not_isWhole_of_readsBack`: No whole decimal reads back as a fraction.
* `shortest_cases`: Where the shortest decimal is found.
* `exponent_shortest_neg`: The shortest decimal of a fraction has a point.
-/

namespace Spreadsheet

/-- The decimal is a whole number. -/
def Decimal.IsWhole (d : Decimal) : Prop :=
  ∃ n, d.coefficient * 10 ^ d.exponent.toNat = n * 10 ^ (-d.exponent).toNat

namespace Decimal

/-- A decimal without zeros at the end that has no digits after the point is whole,
    and so it was with the zeros. -/
theorem isWhole_of_normalize {d : Decimal} (h : 0 ≤ d.normalize.exponent) : d.IsWhole := by
  by_cases hzero : d.coefficient = 0
  · exact ⟨0, by rw [hzero, Nat.zero_mul, Nat.zero_mul]⟩
  rcases normalize_mul d hzero with ⟨hle, hmul⟩
  rcases Int.le_total 0 d.exponent with hpos | hneg
  · refine ⟨d.coefficient * 10 ^ d.exponent.toNat, ?_⟩
    rw [show (-d.exponent).toNat = 0 by omega, Nat.pow_zero, Nat.mul_one]
  · refine ⟨d.normalize.coefficient * 10 ^ d.normalize.exponent.toNat, ?_⟩
    -- The zeros that were dropped are those before the point and those behind it.
    have hsum : (d.normalize.exponent - d.exponent).toNat
        = d.normalize.exponent.toNat + (-d.exponent).toNat := by omega
    rw [show d.exponent.toNat = 0 by omega, Nat.pow_zero, Nat.mul_one, ← hmul, hsum, Nat.pow_eq,
      Nat.pow_add, Nat.mul_assoc]

end Decimal

namespace Shortest

variable {x : Float} {d : Decimal}

theorem le_of_compare {a b : Nat} (h : (compare a b == .gt) = true ∨ (compare a b == .eq) = true) :
    b ≤ a := by
  rcases h with h | h
  · exact Nat.le_of_lt (Nat.compare_eq_gt.mp (eq_of_beq h))
  · exact Nat.le_of_eq (Nat.compare_eq_eq.mp (eq_of_beq h)).symm

theorem ge_of_compare {a b : Nat} (h : (compare a b == .lt) = true ∨ (compare a b == .eq) = true) :
    a ≤ b := by
  rcases h with h | h
  · exact Nat.le_of_lt (Nat.compare_eq_lt.mp (eq_of_beq h))
  · exact Nat.le_of_eq (Nat.compare_eq_eq.mp (eq_of_beq h))

/-- What reads back lies between the ends of the interval. -/
theorem bounds_of_readsBack (h : readsBack x d = true) :
    lowerEnd x * 10 ^ (-d.exponent).toNat
        ≤ d.coefficient * 10 ^ d.exponent.toNat * (4 * Double.unitsPerOne) ∧
      d.coefficient * 10 ^ d.exponent.toNat * (4 * Double.unitsPerOne)
        ≤ upperEnd x * 10 ^ (-d.exponent).toNat := by
  unfold readsBack at h
  simp only [Bool.and_eq_true, Bool.or_eq_true] at h
  refine ⟨le_of_compare ?_, ge_of_compare ?_⟩
  · exact h.1.imp id And.right
  · exact h.2.imp id And.right

/-- No whole decimal reads back as a fraction. -/
theorem not_isWhole_of_readsBack (hx : Double.units x % Double.unitsPerOne ≠ 0)
    (h : readsBack x d = true) : ¬ d.IsWhole := by
  rintro ⟨n, hn⟩
  rcases bounds_of_readsBack h with ⟨hlow, hhigh⟩
  have hpow : 0 < 10 ^ (-d.exponent).toNat := Nat.pow_pos (by decide)
  have hlower : 4 * Double.units x ≤ lowerEnd x + 2 * Double.gap x := by
    unfold lowerEnd
    split <;> omega
  -- Both sides count in the same power of ten, which can be left out.
  rw [hn, Nat.mul_right_comm] at hlow hhigh
  have hlow' := Nat.le_of_mul_le_mul_right hlow hpow
  have hhigh' := Nat.le_of_mul_le_mul_right hhigh hpow
  rw [show n * (4 * Double.unitsPerOne) = 4 * (n * Double.unitsPerOne) from
    Nat.mul_left_comm _ _ _] at hlow' hhigh'
  unfold upperEnd at hhigh'
  exact Double.not_within_half_gap hx n (by omega) (by omega)

theorem eq_of_nearer? {below above : Decimal} {belowReads aboveReads : Bool} {halfway : Ordering}
    (h : nearer? below above belowReads aboveReads halfway = some d) :
    (d = below ∧ belowReads = true) ∨ (d = above ∧ aboveReads = true) := by
  unfold nearer? at h
  split at h
  · exact Or.inl ⟨(Option.some.inj h).symm, rfl⟩
  · exact Or.inr ⟨(Option.some.inj h).symm, rfl⟩
  · cases h
  · split at h
    · exact Or.inl ⟨(Option.some.inj h).symm, rfl⟩
    · exact Or.inr ⟨(Option.some.inj h).symm, rfl⟩
    · rw [← Option.some.inj h]
      by_cases heven : below.coefficient % 2 = 0
      · rw [if_pos heven]
        exact Or.inl ⟨rfl, rfl⟩
      · rw [if_neg heven]
        exact Or.inr ⟨rfl, rfl⟩

/-- What is found on a grid reads back, and its last digit stands where the grid says. -/
theorem readsBack_of_onGrid? {place : Int} (h : onGrid? x place = some d) :
    readsBack x d = true ∧ d.exponent = place := by
  unfold onGrid? at h
  rcases eq_of_nearer? h with ⟨rfl, hreads⟩ | ⟨rfl, hreads⟩
  · exact ⟨hreads, rfl⟩
  · exact ⟨hreads, rfl⟩

/-- No double has its first digit further behind the point. -/
theorem leadingPlace_ge (x : Float) : -324 ≤ leadingPlace x := by
  have hpos : 0 < (Nat.toDigits 10 (stepsBelow x (-324))).length :=
    List.length_pos_of_ne_nil Nat.toDigits_ne_nil
  unfold leadingPlace
  omega

theorem two_pow_dvd {n u k : Nat} (h : u * 5 ^ k = n * 10 ^ k) : 2 ^ k ∣ u := by
  have hten : (10 : Nat) ^ k = 2 ^ k * 5 ^ k := by rw [← Nat.mul_pow]
  rw [hten, ← Nat.mul_assoc] at h
  refine ⟨n, ?_⟩
  rw [Nat.eq_of_mul_eq_mul_right (Nat.pow_pos (by decide)) h, Nat.mul_comm]

/-- The exact value of a fraction is not whole. -/
theorem not_isWhole_exact (hx : Double.units x % Double.unitsPerOne ≠ 0) :
    ¬ (exact x).IsWhole := by
  rintro ⟨n, hn⟩
  unfold exact at hn
  simp only at hn
  rw [show (-1074 : Int).toNat = 0 from rfl, show (-(-1074) : Int).toNat = 1074 from rfl,
    Nat.pow_zero, Nat.mul_one] at hn
  have hdvd : Double.unitsPerOne ∣ Double.units x := @two_pow_dvd n (Double.units x) 1074 hn
  exact hx (Nat.mod_eq_zero_of_dvd hdvd)

end Shortest

/-- The decimal to show is found on a grid, or it is the exact value. -/
theorem shortest_cases (x : Float) :
    ∃ d, shortest x = d.normalize ∧ -1074 ≤ d.exponent ∧
      (Shortest.readsBack x d = true ∨ d = Shortest.exact x) := by
  cases hfound : (List.range 17).findSome?
      fun (n : Nat) => Shortest.onGrid? x (Shortest.leadingPlace x - (n : Int)) with
  | none =>
      refine ⟨Shortest.exact x, ?_, Int.le_refl _, Or.inr rfl⟩
      rw [shortest, hfound, Option.getD_none]
  | some d =>
      rcases List.exists_of_findSome?_eq_some hfound with ⟨n, hrange, hn⟩
      rcases Shortest.readsBack_of_onGrid? hn with ⟨hreads, hplace⟩
      have hlead := Shortest.leadingPlace_ge x
      have hlt := List.mem_range.mp hrange
      refine ⟨d, ?_, by omega, Or.inl hreads⟩
      rw [shortest, hfound, Option.getD_some]

/-- The shortest decimal of a double that is not whole has digits after the point. -/
theorem exponent_shortest_neg {x : Float} (hx : Double.units x % Double.unitsPerOne ≠ 0) :
    (shortest x).exponent < 0 := by
  by_contra hneg
  rcases shortest_cases x with ⟨d, hd, _, hreads | rfl⟩
  · rw [hd] at hneg
    exact Shortest.not_isWhole_of_readsBack hx hreads
      (Decimal.isWhole_of_normalize (Int.not_lt.mp hneg))
  · rw [hd] at hneg
    exact Shortest.not_isWhole_exact hx (Decimal.isWhole_of_normalize (Int.not_lt.mp hneg))

end Spreadsheet
