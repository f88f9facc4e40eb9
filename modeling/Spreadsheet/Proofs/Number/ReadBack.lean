import Spreadsheet.Proofs.Number.Display
import Spreadsheet.Proofs.Number.Nearest

/-!
# The Shortest Decimal Reads Back

A finite double is the one nearest to the decimal that is chosen to show it.

The interval that decimals are searched in is given by whole numbers, in quarters of a
unit, and so it is the interval of the numbers that are rounded to the mantissa of the
double (`Double.Near`). A number in it has the place of the double, except below a power
of two, where the doubles are twice as dense: there it has the place before, and the
interval ends halfway to the nearer neighbour. Rounded at either place it gives the same
double. The exact value, which the search falls back on, is in the interval as well.

## Main definitions

* `Double.size`: The size of a double, as a number.
* `Double.Near`: A number, in units of the exponent, lies in the interval of a mantissa.

## Theorems

* `Double.IsCanonical.nearestSize_of_near`: The interval is rounded to its double.
* `Double.Parts.near_of_readsBack`: The search stays in the interval.
* `Double.eq_of_size`: A finite double is its sign and its size.
* `Double.readsBack`: Every finite double is the nearest one to its shortest decimal.
-/

namespace Spreadsheet

open Float.Model
open Float.Model.UnpackedFloat (Sign)

namespace Decimal

theorem toRat_normalize (d : Decimal) : d.normalize.toRat = d.toRat := by
  by_cases hzero : d.coefficient = 0
  · rw [normalize, if_pos hzero, toRat, toRat, hzero, Nat.cast_zero, zero_mul, zero_mul]
  · rcases normalize_mul d hzero with ⟨hle, hmul⟩
    have hsplit : (10 : ℚ) ^ d.normalize.exponent
        = 10 ^ (d.normalize.exponent - d.exponent).toNat * 10 ^ d.exponent := by
      rw [← zpow_natCast, ← zpow_add₀ (by norm_num)]
      congr 1
      omega
    rw [toRat, toRat, hsplit, ← mul_assoc]
    congr 1
    exact_mod_cast hmul

/-- The exponent of a decimal, taken to the side where it is a whole power. -/
theorem toRat_mul (d : Decimal) :
    d.toRat * 10 ^ (-d.exponent).toNat = d.coefficient * 10 ^ d.exponent.toNat := by
  rw [toRat, mul_assoc, ← zpow_natCast, ← zpow_natCast, ← zpow_add₀ (by norm_num)]
  congr 2
  omega

/-- A number of binary places, written out in decimal ones. -/
theorem toRat_binary (n k : ℕ) :
    toRat ⟨n * Nat.pow 5 k, -(k : ℤ)⟩ = n / 2 ^ (k : ℤ) := by
  have hten : (10 : ℚ) ^ (-(k : ℤ)) = (5 ^ k)⁻¹ * (2 ^ (k : ℤ))⁻¹ := by
    rw [zpow_neg, zpow_natCast, zpow_natCast, ← mul_inv, ← mul_pow]
    norm_num
  rw [toRat, hten, Nat.cast_mul, Nat.pow_eq, Nat.cast_pow, Nat.cast_ofNat, ← mul_assoc,
    mul_inv_cancel_right₀ (pow_ne_zero _ (by norm_num)), div_eq_mul_inv]

end Decimal

namespace Double

/-- The size of a finite double. -/
def size (x : Float) : ℚ := units x / unitsPerOne

theorem unitsPerOne_eq : (unitsPerOne : ℚ) = 2 ^ ((1074 : ℕ) : ℤ) := by
  simp only [unitsPerOne, Nat.pow_eq, Nat.cast_pow, Nat.cast_two, zpow_natCast]

theorem unitsPerOne_pos : 0 < (unitsPerOne : ℚ) := by
  rw [unitsPerOne_eq]
  exact zpow_pos two_pos _

/-- The exact value, on which the search falls back, is the size of the double. -/
theorem toRat_exact (x : Float) : (Shortest.exact x).toRat = size x := by
  have hbinary := Decimal.toRat_binary (units x) 1074
  rw [← unitsPerOne_eq] at hbinary
  exact hbinary

/-- A number, in units of the exponent, lies in the interval of a mantissa. -/
structure Near (m : ℕ) (e : ℤ) (r : ℚ) : Prop where
  /-- The neighbour below is not nearer. -/
  low : (m : ℚ) - 1 / 2 ≤ r
  /-- The neighbour above is not nearer. -/
  high : r ≤ m + 1 / 2
  /-- Halfway to a neighbour the even mantissa is taken. -/
  ties : m % 2 = 0 ∨ (m : ℚ) - 1 / 2 < r ∧ r < m + 1 / 2
  /-- Below a power of two the neighbour is at half the distance. -/
  narrow : m = 2 ^ 52 → -1074 < e → (m : ℚ) - 1 / 4 ≤ r

theorem near_self (m : ℕ) (e : ℤ) : Near m e m :=
  ⟨by linarith, by linarith, Or.inr ⟨by linarith, by linarith⟩, fun _ _ => by linarith⟩

section Near

variable {m : ℕ} {e : ℤ} {r : ℚ}

theorem Near.pos (hr : Near m e r) (hm : 0 < m) : 0 < r := by
  have hlow := hr.low
  have hone : (1 : ℚ) ≤ m := by exact_mod_cast hm
  linarith

/-- A number in the interval with the place of the double is rounded to its mantissa. -/
theorem IsCanonical.nearestSize_of_place (h : IsCanonical m e) (hr : Near m e r)
    (hplace : 2 ^ 52 ≤ r ∨ e = -1074) :
    Double.nearestSize (r * 2 ^ e) = ofParts .positive m e h.pos := by
  have hpow : (0 : ℚ) < 2 ^ e := zpow_pos two_pos e
  have hlt : (m : ℚ) + 1 ≤ 2 ^ 53 := by exact_mod_cast h.lt
  have hlow := hr.low
  have hhigh := hr.high
  have heq : Double.place (r * 2 ^ e) = e := by
    refine place_eq (mul_pos (hr.pos h.pos) hpow) ?_ (hplace.imp_left fun hfull => ?_) h.least
    · exact mul_lt_mul_of_pos_right (by linarith) hpow
    · exact mul_le_mul_of_nonneg_right hfull hpow.le
  rw [Double.nearestSize, Double.steps, heq, mul_div_cancel_right₀ _ hpow.ne',
    halfEven_eq hlow hhigh hr.ties (hr.pos h.pos).le, h.fitted, ofParts]

/-- A number in the interval below the power of two that the double is has the place
    before, and is rounded up to the power. -/
theorem IsCanonical.nearestSize_of_below (h : IsCanonical m e) (hr : Near m e r)
    (hbelow : r < 2 ^ 52) (hleast : e ≠ -1074) :
    Double.nearestSize (r * 2 ^ e) = ofParts .positive m e h.pos := by
  have hlow := hr.low
  have he := h.least
  have hm : m = 2 ^ 52 := by
    have hle : m ≤ 2 ^ 52 := by
      have : (m : ℚ) < (2 ^ 52 : ℕ) + 1 := by
        push_cast
        linarith
      exact Nat.lt_succ_iff.mp (by exact_mod_cast this)
    exact Nat.le_antisymm hle (h.full.resolve_right hleast)
  have hnarrow := hr.narrow hm (by omega)
  have hcast : (m : ℚ) = 2 ^ 52 := by rw [hm]; norm_num
  have hsplit : (2 : ℚ) ^ e = 2 * 2 ^ (e - 1) := by
    rw [← zpow_one_add₀ two_ne_zero]
    congr 1
    omega
  -- The place is one less, so there are twice as many steps.
  have hhalf : r * 2 ^ e = 2 * r * 2 ^ (e - 1) := by
    rw [hsplit]
    ring
  have hpow : (0 : ℚ) < 2 ^ (e - 1) := zpow_pos two_pos _
  have hpos := hr.pos h.pos
  have heq : Double.place (2 * r * 2 ^ (e - 1)) = e - 1 := by
    refine place_eq (mul_pos (by linarith) hpow) ?_ (Or.inl ?_) (by omega)
    · exact mul_lt_mul_of_pos_right (by linarith) hpow
    · exact mul_le_mul_of_nonneg_right (by linarith) hpow.le
  have hsteps : halfEven (2 * r) = 2 ^ 53 := by
    refine halfEven_eq ?_ ?_ (Or.inl (by decide)) (by linarith)
    · push_cast
      linarith
    · push_cast
      linarith
  rw [hhalf, Double.nearestSize, Double.steps, heq, mul_div_cancel_right₀ _ hpow.ne', hsteps,
    fitted_eq .positive (k := 1) (by rw [Nat.log2_two_pow]; omega)
      (Or.inr (by rw [Nat.log2_two_pow]; omega)) (by decide), ofParts]
  exact congrArg (fun u => Float.ofModel (.pack u))
    (finite_congr (by rw [hm]; rfl) (by push_cast; omega) _ _)

/-- The interval of a double is rounded to it. -/
theorem IsCanonical.nearestSize_of_near (h : IsCanonical m e) (hr : Near m e r) :
    Double.nearestSize (r * 2 ^ e) = ofParts .positive m e h.pos := by
  by_cases hplace : 2 ^ 52 ≤ r ∨ e = -1074
  · exact h.nearestSize_of_place hr hplace
  · rcases not_or.mp hplace with ⟨hbelow, hleast⟩
    exact h.nearestSize_of_below hr (not_le.mp hbelow) hleast

end Near

/-- Numbers that are counted in the same unit compare as their counts. -/
theorem compare_scaled {a b : ℕ} {p q c : ℚ} (hc : 0 < c) (ha : (a : ℚ) = p * c)
    (hb : (b : ℚ) = q * c) :
    (compare a b = .lt ↔ p < q) ∧ (compare a b = .eq ↔ p = q) ∧ (compare a b = .gt ↔ q < p) := by
  rw [Nat.compare_eq_lt, Nat.compare_eq_eq, Nat.compare_eq_gt]
  refine ⟨?_, ?_, ?_⟩
  · rw [← @Nat.cast_lt ℚ, ha, hb, mul_lt_mul_iff_left₀ hc]
  · rw [← @Nat.cast_inj ℚ, ha, hb, mul_left_inj' hc.ne']
  · rw [← @Nat.cast_lt ℚ, ha, hb, mul_lt_mul_iff_left₀ hc]

/-- Comparing a decimal with quarters of a unit compares the numbers. -/
theorem compareQuarters_iff (d : Decimal) (quarters : ℕ) :
    (Shortest.compareQuarters d quarters = .lt ↔ d.toRat < quarters / (4 * unitsPerOne)) ∧
      (Shortest.compareQuarters d quarters = .eq ↔ d.toRat = quarters / (4 * unitsPerOne)) ∧
      (Shortest.compareQuarters d quarters = .gt ↔ quarters / (4 * unitsPerOne) < d.toRat) := by
  have hunits : (0 : ℚ) < 4 * unitsPerOne := mul_pos (by norm_num) unitsPerOne_pos
  have hten : (0 : ℚ) < 10 ^ (-d.exponent).toNat := pow_pos (by norm_num) _
  refine compare_scaled (mul_pos hten hunits) ?_ ?_
  · rw [← mul_assoc d.toRat, d.toRat_mul]
    simp only [Nat.pow_eq, Nat.cast_mul, Nat.cast_pow, Nat.cast_ofNat]
  · rw [mul_comm (10 ^ _ : ℚ), ← mul_assoc, div_mul_cancel₀ _ hunits.ne']
    simp only [Nat.pow_eq, Nat.cast_mul, Nat.cast_pow, Nat.cast_ofNat]

namespace Parts

variable {x : Float} {s : Sign} {m : ℕ} {e : ℤ}

theorem gap_div (h : Parts x s m e) : (Double.gap x : ℚ) / unitsPerOne = 2 ^ e := by
  have hle := h.canonical.least
  rw [h.gap, Nat.cast_pow, Nat.cast_two, ← zpow_natCast, unitsPerOne_eq, ← zpow_sub₀ two_ne_zero]
  congr 1
  omega

/-- The size of a double is its mantissa in units of its exponent. -/
theorem size_eq (h : Parts x s m e) : size x = m * 2 ^ e := by
  rw [size, h.units, Nat.cast_mul, mul_div_assoc, h.gap_div]

/-- A number of quarters of the step of a double. -/
theorem quarters_div (h : Parts x s m e) (n : ℕ) :
    ((n * Double.gap x : ℕ) : ℚ) / (4 * unitsPerOne) = n / 4 * 2 ^ e := by
  rw [Nat.cast_mul, mul_div_mul_comm, h.gap_div]

theorem upperEnd_div (h : Parts x s m e) :
    (Shortest.upperEnd x : ℚ) / (4 * unitsPerOne) = (m + 1 / 2) * 2 ^ e := by
  have hends : Shortest.upperEnd x = (4 * m + 2) * Double.gap x := by
    rw [Shortest.upperEnd, h.units]
    ring
  rw [hends, h.quarters_div]
  push_cast
  ring

theorem lowerEnd_div (h : Parts x s m e) :
    (Shortest.lowerEnd x : ℚ) / (4 * unitsPerOne)
      = (m - if m = 2 ^ 52 ∧ -1074 < e then 1 / 4 else 1 / 2) * 2 ^ e := by
  have hpos := h.canonical.pos
  -- Below a power of two the doubles lie closer, and the interval ends earlier.
  have hends : Shortest.lowerEnd x
      = (4 * m - if m = 2 ^ 52 ∧ -1074 < e then 1 else 2) * Double.gap x := by
    rw [Shortest.lowerEnd, h.units, Nat.sub_mul, ← Nat.mul_assoc]
    by_cases hnarrow : m = 2 ^ 52 ∧ -1074 < e
    · rw [if_pos (h.narrow.mpr hnarrow), if_pos hnarrow, Nat.one_mul]
    · rw [if_neg fun hc => hnarrow (h.narrow.mp hc), if_neg hnarrow]
  rw [hends, h.quarters_div]
  congr 1
  split
  · rw [Nat.cast_sub (by omega)]
    push_cast
    ring
  · rw [Nat.cast_sub (by omega)]
    push_cast
    ring

/-- The search for decimals stays in the interval of the double. -/
theorem near_of_readsBack (h : Parts x s m e) {d : Decimal}
    (hd : Shortest.readsBack x d = true) : Near m e (d.toRat / 2 ^ e) := by
  have hpow : (0 : ℚ) < 2 ^ e := zpow_pos two_pos e
  rcases compareQuarters_iff d (Shortest.lowerEnd x) with ⟨_, hlowEq, hlowGt⟩
  rcases compareQuarters_iff d (Shortest.upperEnd x) with ⟨hhighLt, hhighEq, _⟩
  rw [h.lowerEnd_div] at hlowEq hlowGt
  rw [h.upperEnd_div] at hhighLt hhighEq
  have hclosed : Shortest.closed x = true ↔ m % 2 = 0 := by
    rw [Shortest.closed, decide_eq_true_eq, h.parity]
  unfold Shortest.readsBack at hd
  simp only [Bool.and_eq_true, Bool.or_eq_true, beq_iff_eq, hclosed, hlowEq, hlowGt, hhighLt,
    hhighEq] at hd
  rcases hd with ⟨hlow, hhigh⟩
  -- The end below is at least half a step away from the mantissa, or a quarter.
  have hquarter : (m : ℚ) - 1 / 2 ≤ m - if m = 2 ^ 52 ∧ -1074 < e then 1 / 4 else 1 / 2 := by
    split
    · linarith
    · exact le_rfl
  generalize hend : (m : ℚ) - (if m = 2 ^ 52 ∧ -1074 < e then 1 / 4 else 1 / 2) = low
    at hlow hquarter
  rw [← lt_div_iff₀ hpow, ← div_eq_iff hpow.ne'] at hlow
  rw [← div_lt_iff₀ hpow, ← div_eq_iff hpow.ne'] at hhigh
  have hle : low ≤ d.toRat / 2 ^ e := hlow.elim le_of_lt fun heq => heq.2.ge
  refine ⟨hquarter.trans hle, hhigh.elim le_of_lt fun heq => heq.2.le, ?_, fun hm he => ?_⟩
  · rcases hlow with hlow | ⟨heven, _⟩
    · rcases hhigh with hhigh | ⟨heven, _⟩
      · exact Or.inr ⟨lt_of_le_of_lt hquarter hlow, hhigh⟩
      · exact Or.inl heven
    · exact Or.inl heven
  · rw [if_pos ⟨hm, he⟩] at hend
    rw [hend]
    exact hle

/-- The shortest decimal is in the interval of the double. -/
theorem near_shortest (h : Parts x s m e) : Near m e ((shortest x).toRat / 2 ^ e) := by
  rcases shortest_cases x with ⟨d, hd, _, hreads | rfl⟩
  · rw [hd, Decimal.toRat_normalize]
    exact h.near_of_readsBack hreads
  · rw [hd, Decimal.toRat_normalize, toRat_exact, h.size_eq,
      mul_div_cancel_right₀ _ (zpow_pos two_pos e).ne']
    exact near_self m e

end Parts

theorem IsCanonical.neg_ofParts {m : ℕ} {e : ℤ} (h : IsCanonical m e) :
    -ofParts .positive m e h.pos = ofParts .negative m e h.pos := by
  show Float.ofModel (.pack (ofParts .positive m e h.pos).toModel.unpack.neg) = _
  rw [h.unpack_ofParts]
  rfl

variable {x : Float}

theorem size_of_isZero (h : IsZero x) : size x = 0 := by
  rw [size, units_of_isZero h, Nat.cast_zero, zero_div]

/-- A finite double is its sign and its size. -/
theorem eq_of_size (h : x.isFinite = true) :
    (if isNegative x then -nearestSize (size x) else nearestSize (size x)) = x := by
  rcases isZero_or_exists_parts h with hzero | ⟨s, m, e, hm, hx⟩
  · -- The sign of zero is told by the bits alone.
    rw [size_of_isZero hzero, nearestSize_zero]
    rcases hzero.eq_zero_or with rfl | rfl
    · decide +kernel
    · decide +kernel
  · have hparts := parts_of_unpack hx
    have hsign := hparts.sign
    have hself : ofParts s m e hm = x := by rw [ofParts, ← hx, pack_unpack]
    rw [hparts.size_eq, hparts.canonical.nearestSize]
    cases s with
    | positive =>
        rw [if_neg fun hneg => Sign.noConfusion (hsign.mp hneg)]
        exact hself
    | negative =>
        rw [if_pos (hsign.mpr rfl), hparts.canonical.neg_ofParts]
        exact hself

/-- The search finds the digit zero for a zero. -/
theorem shortest_of_isZero (h : IsZero x) : shortest x = ⟨0, 0⟩ := by
  have hfound : (List.range 17).findSome? (fun (n : Nat) =>
      Shortest.onGrid? x (Shortest.leadingPlace x - (n : Int))) = some ⟨0, -324⟩ := by
    rcases h.eq_zero_or with rfl | rfl
    · decide +kernel
    · decide +kernel
  rw [shortest, hfound, Option.getD_some, Decimal.normalize, if_pos rfl]

/-- The shortest decimal is rounded to the size of the double. -/
theorem toFloat_shortest (h : x.isFinite = true) :
    (shortest x).toFloat = nearestSize (size x) := by
  rw [Decimal.toFloat_eq]
  rcases isZero_or_exists_parts h with hzero | ⟨s, m, e, hm, hx⟩
  · rw [shortest_of_isZero hzero, size_of_isZero hzero, Decimal.toRat, Nat.cast_zero, zero_mul]
  · have hparts := parts_of_unpack hx
    have hnear := hparts.canonical.nearestSize_of_near hparts.near_shortest
    rw [div_mul_cancel₀ _ (zpow_pos two_pos e).ne'] at hnear
    rw [hnear, hparts.size_eq, hparts.canonical.nearestSize]

/-- Every finite double is the one nearest to its shortest decimal. -/
theorem readsBack (h : x.isFinite = true) : ReadsBack x := by
  rw [ReadsBack, toFloat_shortest h]
  exact eq_of_size h

/-- What is a number equals itself. -/
theorem beq_self (h : x.isNaN = false) : (x == x) = true := by
  have hunpack : x.toModel.unpack.isNaN = false := h
  show UnpackedFloat.beq x.toModel.unpack x.toModel.unpack = true
  cases hu : x.toModel.unpack with
  | notANumber =>
      rw [hu] at hunpack
      cases hunpack
  | infinity s =>
      cases s with
      | positive => rfl
      | negative => rfl
  | zero s => rfl
  | finite s m e hm =>
      have hcompare : (compare e e).then (compare m m) = .eq := by
        rw [Int.compare_eq_eq.mpr rfl, Nat.compare_eq_eq.mpr rfl]
        rfl
      cases s with
      | positive => exact congrArg (fun o => some o == some .eq) hcompare
      | negative => exact congrArg (fun o => some o.swap == some .eq) hcompare

/-- A number equals what is like it. -/
theorem Alike.beq {y : Float} (h : Alike y x) (hx : x.isNaN = false) : (y == x) = true := by
  rcases h with rfl | ⟨⟨s, hs⟩, ⟨t, ht⟩⟩
  · exact beq_self hx
  · show UnpackedFloat.beq y.toModel.unpack x.toModel.unpack = true
    rw [hs, ht]
    rfl

end Double

end Spreadsheet
