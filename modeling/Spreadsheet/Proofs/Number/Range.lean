import Spreadsheet.Proofs.Number.Double

/-!
# The Range of Doubles

Which whole numbers have a nearest double that is finite.

The greatest finite double is `(2 ^ 53 - 1) * 2 ^ 971`. What is at most that is
rounded to at most that, because it is rounded to a multiple of a power of two of
which the bound is a multiple too: the exponent only ever grows to make room for the
53 digits that are kept, and rounding up never goes past a multiple. So the exponent
of the result stays in range, and the result is finite.

In particular a whole number that was a double before is within the doubles, and so
is every number of things that can be counted.

## Main definitions

* `Double.Bounded`: A product of a natural number and a power of two is at most the
  greatest double.
* `Double.greatest`: The greatest finite double.

## Theorems

* `Double.rounded_mul_lt`: Rounding adds less than one unit of the last digit kept.
* `Double.Bounded.isFinite_round`: What is bounded is rounded to a finite double.
* `Double.isFinite_ofNat`, `Double.isSome_ofInt?`: Whole numbers up to the greatest
  double have a finite one next to them.
* `Double.isSome_ofInt?_of_whole?`: Doubles that are whole are whole numbers with a
  double.
-/

namespace Spreadsheet

open Float.Model
open Float.Model.UnpackedFloat (ExtendedMantissa Accuracy)

namespace Double

/-- The product of a natural number and a power of two is at most the greatest
    double. -/
structure Bounded (m : Nat) (e : Int) : Prop where
  /-- The exponent is one that doubles have. -/
  exponent : e ≤ 971
  /-- The number is at most the bound, counted in units of the power of two. -/
  mantissa : m ≤ (2 ^ 53 - 1) * 2 ^ (971 - e).toNat

/-- What is known of the digits that were dropped: together with the flags, the
    digits that were kept stay below the number. -/
theorem shift_mul_le (m k : Nat) :
    let em := (ExtendedMantissa.ofMantissaAndAccuracy m .exact) >>> k
    em.mantissa * 2 ^ k ≤ m ∧ ((em.roundBit || em.stickyBit) = true → em.mantissa * 2 ^ k < m) := by
  induction k with
  | zero => exact ⟨Nat.le_of_eq (Nat.mul_one m), fun h => absurd h Bool.false_ne_true⟩
  | succ k ih =>
      show let em := ((ExtendedMantissa.ofMantissaAndAccuracy m .exact) >>> k).shiftRightOne
        em.mantissa * 2 ^ (k + 1) ≤ m ∧
          ((em.roundBit || em.stickyBit) = true → em.mantissa * 2 ^ (k + 1) < m)
      generalize (ExtendedMantissa.ofMantissaAndAccuracy m .exact) >>> k = em at ih
      rcases ih with ⟨hle, hlt⟩
      have hhalf : em.mantissa / 2 * 2 ^ (k + 1) = (em.mantissa / 2 * 2) * 2 ^ k := by
        rw [Nat.pow_succ, Nat.mul_assoc, Nat.mul_comm (2 ^ k) 2]
      have hmono : em.mantissa / 2 * 2 ^ (k + 1) ≤ em.mantissa * 2 ^ k := by
        rw [hhalf]
        exact Nat.mul_le_mul_right _ (Nat.div_mul_le_self _ _)
      refine ⟨hmono.trans hle, fun hflag => ?_⟩
      by_cases hodd : em.mantissa % 2 = 0
      · -- The digit that is dropped is zero, so one was dropped before that is not.
        refine Nat.lt_of_le_of_lt hmono (hlt ?_)
        have hround : (em.mantissa % 2 != 0) = false := by rw [hodd]; rfl
        change ((em.mantissa % 2 != 0) || (em.roundBit || em.stickyBit)) = true at hflag
        rwa [hround, Bool.false_or] at hflag
      · refine Nat.lt_of_lt_of_le ?_ hle
        show em.mantissa / 2 * 2 ^ (k + 1) < em.mantissa * 2 ^ k
        rw [hhalf]
        exact Nat.mul_lt_mul_of_pos_right (by omega) (Nat.two_pow_pos k)

/-- Rounding adds less than one unit of the last digit that is kept. -/
theorem rounded_mul_lt (m k : Nat) :
    ((ExtendedMantissa.ofMantissaAndAccuracy m .exact) >>> k).roundedMantissa * 2 ^ k
      < m + 2 ^ k := by
  rcases shift_mul_le m k with ⟨hle, hlt⟩
  generalize (ExtendedMantissa.ofMantissaAndAccuracy m .exact) >>> k = em at hle hlt
  have hpos := Nat.two_pow_pos k
  rcases em with ⟨n, roundBit, stickyBit⟩
  change n * 2 ^ k ≤ m at hle
  change (roundBit || stickyBit) = true → n * 2 ^ k < m at hlt
  cases roundBit with
  | false =>
      -- It is rounded down.
      have hdown : ExtendedMantissa.roundedMantissa ⟨n, false, stickyBit⟩ = n := by
        cases stickyBit with
        | false => rfl
        | true => rfl
      rw [hdown]
      omega
  | true =>
      have hup : ExtendedMantissa.roundedMantissa ⟨n, true, stickyBit⟩ ≤ n + 1 := by
        cases stickyBit with
        | false =>
            show n + n % 2 ≤ n + 1
            omega
        | true => exact Nat.le_refl _
      have hstrict := hlt rfl
      calc ExtendedMantissa.roundedMantissa ⟨n, true, stickyBit⟩ * 2 ^ k
          ≤ (n + 1) * 2 ^ k := Nat.mul_le_mul_right _ hup
        _ = n * 2 ^ k + 2 ^ k := by rw [Nat.add_mul, Nat.one_mul]
        _ < m + 2 ^ k := by omega

namespace Bounded

variable {m : Nat} {e : Int}

/-- The exponent that makes room for the digits that are kept is in range. -/
theorem targetExponent_le (h : Bounded m e) :
    Format.binary64.targetExponent (totalExponent m e) ≤ 971 := by
  have hlog : (m.log2 : Int) + e ≤ 1023 := by
    by_cases hzero : m = 0
    · have := h.exponent
      rw [hzero, Nat.log2_zero]
      omega
    · have hlt : m < 2 ^ (53 + (971 - e).toNat) := by
        calc m ≤ (2 ^ 53 - 1) * 2 ^ (971 - e).toNat := h.mantissa
          _ < 2 ^ 53 * 2 ^ (971 - e).toNat :=
            Nat.mul_lt_mul_of_pos_right (by decide) (Nat.two_pow_pos _)
          _ = 2 ^ (53 + (971 - e).toNat) := (Nat.pow_add _ _ _).symm
      have hlog := (Nat.log2_lt hzero).mpr hlt
      have := h.exponent
      omega
  show max ((m.log2 : Int) + 1 + e - (53 : Int)) (-1074) ≤ 971
  omega

/-- Rounding to the digits that are kept does not go past the bound. -/
theorem shift (h : Bounded m e) (k : Nat) (hk : e + k ≤ 971) :
    Bounded (((ExtendedMantissa.ofMantissaAndAccuracy m .exact) >>> k).roundedMantissa)
      (e + k) where
  exponent := hk
  mantissa := by
    -- The bound is a multiple of the new unit, and rounding stays below the next one.
    have hsum : (971 - e).toNat = (971 - (e + k)).toNat + k := by omega
    have hbound := h.mantissa
    rw [hsum, Nat.pow_add, ← Nat.mul_assoc] at hbound
    refine Nat.le_of_lt_succ (Nat.lt_of_mul_lt_mul_right (a := 2 ^ k) ?_)
    calc _ < m + 2 ^ k := rounded_mul_lt m k
      _ ≤ (2 ^ 53 - 1) * 2 ^ (971 - (e + k)).toNat * 2 ^ k + 2 ^ k := Nat.add_le_add_right hbound _
      _ = _ := by rw [Nat.succ_mul]

theorem shift_target (h : Bounded m e) :
    Bounded (UnpackedFloat.shiftToTargetExponent .binary64 m e .exact).1.roundedMantissa
      (UnpackedFloat.shiftToTargetExponent .binary64 m e .exact).2 := by
  refine h.shift _ ?_
  have := h.exponent
  have := h.targetExponent_le
  omega

/-- What is bounded is rounded to what is packed as a finite double. -/
theorem unpackExponent_round (h : Bounded m e) (s : UnpackedFloat.Sign) :
    UnpackedFloat.unpackExponent (UnpackedFloat.pack .binary64
      (UnpackedFloat.roundWithAccuracy .binary64 s m e .exact)) ≠ -1#_ := by
  have hfirst := h.shift_target
  -- Rounding may need one more digit, so the exponent is adjusted a second time.
  have hsecond := hfirst.shift_target.exponent
  unfold UnpackedFloat.roundWithAccuracy
  generalize UnpackedFloat.shiftToTargetExponent .binary64 m e .exact = first at hfirst hsecond
  simp only
  generalize UnpackedFloat.shiftToTargetExponent .binary64 first.1.roundedMantissa first.2 .exact
    = second at hsecond
  split
  · rw [UnpackedFloat.pack, UnpackedFloat.packedZero, UnpackedFloat.unpackExponent_packComponents]
    decide
  · exact unpackExponent_finite _ _ _ _ (by omega)

end Bounded

/-- A double that was rounded from something bounded is finite. -/
theorem Bounded.isFinite_round {m : Nat} {e : Int} (h : Bounded m e) (s : UnpackedFloat.Sign) :
    (Float.ofModel (.pack (UnpackedFloat.roundWithAccuracy .binary64 s m e .exact))).isFinite
      = true :=
  (isFinite_unpack_iff _).mpr (h.unpackExponent_round s)

/-- A double has at most 53 digits, and its exponent is in range. -/
theorem bounds_of_unpack {b : BitVec Format.binary64.numBits} {s : UnpackedFloat.Sign} {m : Nat}
    {e : Int} {hm : 0 < m} (h : UnpackedFloat.unpack .binary64 b = .finite s m e hm) :
    m ≤ 2 ^ 53 - 1 ∧ e ≤ 971 := by
  have hlt : (UnpackedFloat.unpackExponent b).toNat < 2048 := (UnpackedFloat.unpackExponent b).isLt
  unfold UnpackedFloat.unpack at h
  simp only at h
  split at h
  · split at h
    · cases h
    · cases h
  · rename_i hfull
    have hne : (UnpackedFloat.unpackExponent b).toNat ≠ 2047 := fun hnat =>
      hfull (BitVec.eq_of_toNat_eq (by rw [hnat]; decide))
    split at h
    · rename_i hzero
      split at h
      · cases h
      · -- The number is one of the least.
        rcases UnpackedFloat.finite.inj h with ⟨_, hm, he⟩
        have hbound : (UnpackedFloat.unpackMantissa b).toNat < 2 ^ 52 :=
          (UnpackedFloat.unpackMantissa b).isLt
        refine ⟨by omega, ?_⟩
        change ((UnpackedFloat.unpackExponent b).toNat : Int) - ((1023 : Int) + (52 : Int)) + 1 = e
          at he
        rw [hzero] at he
        change ((0 : Nat) : Int) - ((1023 : Int) + (52 : Int)) + 1 = e at he
        omega
    · rcases UnpackedFloat.finite.inj h with ⟨_, hm, he⟩
      have hbound : (1#1 ++ UnpackedFloat.unpackMantissa b).toNat < 2 ^ 53 :=
        (1#1 ++ UnpackedFloat.unpackMantissa b).isLt
      refine ⟨by omega, ?_⟩
      change ((UnpackedFloat.unpackExponent b).toNat : Int) - ((1023 : Int) + (52 : Int)) = e at he
      omega

theorem isFinite_pack_zero (s : UnpackedFloat.Sign) :
    (Float.ofModel (.pack (.zero s))).isFinite = true := by
  refine (isFinite_unpack_iff _).mpr ?_
  show UnpackedFloat.unpackExponent (UnpackedFloat.pack .binary64 (.zero s)) ≠ -1#_
  rw [UnpackedFloat.pack, UnpackedFloat.packedZero, UnpackedFloat.unpackExponent_packComponents]
  decide

/-- A finite double times one is finite. -/
theorem isFinite_mul_one {x : Float} (h : x.isFinite = true) :
    (x * Float.ofBits 0x3FF0000000000000).isFinite = true := by
  have hone : (Float.ofBits 0x3FF0000000000000).toModel.unpack
      = .finite .positive (2 ^ 52) (-52) (by decide) := rfl
  show (Float.ofModel (.pack (UnpackedFloat.mul .binary64 x.toModel.unpack
    (Float.ofBits 0x3FF0000000000000).toModel.unpack))).isFinite = true
  rw [hone]
  have hunpack : x.toModel.unpack.isFinite = true := h
  cases hu : x.toModel.unpack with
  | notANumber => rw [hu] at hunpack; cases hunpack
  | infinity s => rw [hu] at hunpack; cases hunpack
  | zero s => exact isFinite_pack_zero _
  | finite s m e hm =>
      -- The product is the mantissa with 52 zeros behind it, no larger than before.
      rcases bounds_of_unpack hu with ⟨hm', he⟩
      refine Bounded.isFinite_round ⟨by omega, ?_⟩ _
      have hsum : (971 - (e + -52)).toNat = (971 - e).toNat + 52 := by omega
      rw [hsum, Nat.pow_add, ← Nat.mul_assoc]
      refine Nat.mul_le_mul_right _ (hm'.trans ?_)
      exact Nat.le_mul_of_pos_right _ (Nat.two_pow_pos _)

/-- What is bounded is rounded to a finite double, also if it is first written with a
    smaller exponent. -/
theorem Bounded.isFinite_round_any {m : Nat} {e : Int} (h : Bounded m e) (s : UnpackedFloat.Sign) :
    (Float.ofModel (.pack (UnpackedFloat.round .binary64 s m e))).isFinite = true := by
  -- A smaller exponent makes the number of units larger by the same power.
  have hdecrease : ∀ k : Nat, Bounded (m <<< k) (e - k) := by
    intro k
    have hexponent := h.exponent
    refine ⟨by omega, ?_⟩
    have hsum : (971 - (e - k)).toNat = (971 - e).toNat + k := by omega
    rw [hsum, Nat.pow_add, ← Nat.mul_assoc, Nat.shiftLeft_eq]
    exact Nat.mul_le_mul_right _ h.mantissa
  exact (hdecrease _).isFinite_round s

/-- A machine word has a finite double next to it. -/
theorem isFinite_toFloat (n : UInt64) : n.toFloat.isFinite = true := by
  show (Float.ofModel
    (.pack (UnpackedFloat.normalize .binary64 (n.toNat : Int) 0 .positive))).isFinite = true
  unfold UnpackedFloat.normalize
  have hbounded : ∀ m : Nat, m < 2 ^ 64 → Bounded m 0 := by
    intro m hm
    refine ⟨by decide, ?_⟩
    calc m ≤ 2 ^ 64 := Nat.le_of_lt hm
      _ ≤ 2 ^ (971 - 0 : Int).toNat := Nat.pow_le_pow_right (by decide) (by decide)
      _ ≤ (2 ^ 53 - 1) * 2 ^ (971 - 0 : Int).toNat := Nat.le_mul_of_pos_left _ (by decide)
  have hn : n.toNat < 2 ^ 64 := n.toNat_lt
  split
  · exact (hbounded _ (by omega)).isFinite_round_any _
  · exact isFinite_pack_zero _
  · exact (hbounded _ (by omega)).isFinite_round_any _

/-- A number that is too long to be read at once is read with 53 more digits. -/
theorem ofScientific_zero {n : Nat} (h : n ≠ 0) :
    UnpackedFloat.ofScientific .binary64 n 0
      = UnpackedFloat.roundWithAccuracy .binary64 .positive (n <<< 53 * 1) (-53 + 0) .exact := by
  have hpow : (0 : Int) < 2 ^ Format.binary64.exponentBits := by decide
  have hlarge : ¬ (0 : Int) > 2 ^ Format.binary64.exponentBits := by omega
  have hsmall : ¬ (0 : Int) < -(2 ^ Format.binary64.exponentBits + n.log2) := by omega
  unfold UnpackedFloat.ofScientific
  rw [dif_neg h, if_neg hlarge, if_neg hsmall, if_pos (Int.le_refl 0)]
  rfl

/-- The greatest finite double. -/
def greatest : Nat := (2 ^ 53 - 1) * 2 ^ 971

theorem greatest_pos : 0 < greatest := Nat.mul_pos (by decide) (Nat.two_pow_pos _)

/-- A natural number up to the greatest double has a finite one next to it. -/
theorem isFinite_ofNat {n : Nat} (h : n ≤ greatest) : (Float.ofNat n).isFinite = true := by
  show (Float.ofScientific n false 0).isFinite = true
  unfold Float.ofScientific
  split
  · exact isFinite_mul_one (isFinite_toFloat _)
  · -- The number is too long to be read at once.
    show (Float.ofModel (.pack (UnpackedFloat.ofScientific .binary64 n 0))).isFinite = true
    by_cases hzero : n = 0
    · rw [hzero]
      exact isFinite_pack_zero _
    · rw [ofScientific_zero hzero]
      have hbounded : Bounded (n <<< 53 * 1) (-53 + 0) := by
        have hexponent : (971 - (-53 + 0) : Int).toNat = 971 + 53 := by decide
        refine ⟨by decide, ?_⟩
        rw [greatest] at h
        rw [Nat.mul_one, Nat.shiftLeft_eq, hexponent, Nat.pow_add 2 971 53,
          ← Nat.mul_assoc]
        -- The powers are far too large to be computed.
        generalize (2 : Nat) ^ 971 = p at h ⊢
        exact Nat.mul_le_mul_right _ h
      exact hbounded.isFinite_round _

/-- A whole number between the greatest doubles of both signs has a double. -/
theorem isSome_ofInt? {n : Int} (h : n.natAbs ≤ greatest) : (ofInt? n).isSome = true := by
  have hfinite : (Float.ofInt n).isFinite = true := by
    cases n with
    | ofNat n => exact isFinite_ofNat h
    | negSucc n => exact isFinite_neg (isFinite_ofNat h)
  rw [ofInt?]
  simp only [hfinite, if_true]
  rfl

/-- The exponent field is the one that unpacking reads. -/
theorem exponentField_eq (x : Float) :
    exponentField x = (@UnpackedFloat.unpackExponent .binary64 x.toBits.toBitVec).toNat := by
  show x.toBits.toNat / 2 ^ 52 % 2 ^ 11 = (BitVec.extractLsb 62 52 x.toBits.toBitVec).toNat
  rw [BitVec.extractLsb_toNat, Nat.shiftRight_eq_div_pow]
  rfl

theorem exponentField_le {x : Float} (h : x.isFinite = true) : exponentField x ≤ 2046 := by
  have hfull := (isFinite_unpack_iff x.toBits.toBitVec).mp h
  have hlt : exponentField x < 2 ^ 11 := Nat.mod_lt _ (by decide)
  have hne : exponentField x ≠ 2047 := by
    intro heq
    rw [exponentField_eq] at heq
    exact hfull (BitVec.eq_of_toNat_eq (by rw [heq]; decide))
  omega

/-- No finite double is larger than the greatest. -/
theorem units_le {x : Float} (h : x.isFinite = true) : units x ≤ greatest * unitsPerOne := by
  have hfraction : fractionField x < 2 ^ 52 := Nat.mod_lt _ (by decide)
  have hgap : gap x ≤ 2 ^ 971 * unitsPerOne := by
    have hfield := exponentField_le h
    calc gap x = 2 ^ (exponentField x - 1) := Nat.pow_eq
      _ ≤ 2 ^ (971 + 1074) := Nat.pow_le_pow_right (by decide) (by omega)
      _ = 2 ^ 971 * unitsPerOne := by rw [Nat.pow_add 2 971 1074, unitsPerOne, Nat.pow_eq]
  have hsize : units x ≤ (2 ^ 53 - 1) * gap x := by
    have hpos := gap_pos x
    rw [units]
    split
    · calc fractionField x ≤ (2 ^ 53 - 1) * 1 := by omega
        _ ≤ (2 ^ 53 - 1) * gap x := Nat.mul_le_mul_left _ hpos
    · refine Nat.mul_le_mul_right _ ?_
      show 2 ^ 52 + fractionField x ≤ 2 ^ 53 - 1
      omega
  -- At most 53 digits, in units of the last place of the greatest double.
  calc units x ≤ (2 ^ 53 - 1) * gap x := hsize
    _ ≤ (2 ^ 53 - 1) * (2 ^ 971 * unitsPerOne) := Nat.mul_le_mul_left _ hgap
    _ = greatest * unitsPerOne := by rw [greatest, Nat.mul_assoc]

/-- A whole number that is a double has a double. -/
theorem isSome_ofInt?_of_whole? {x : Float} {n : Int} (h : whole? x = some n) :
    (ofInt? n).isSome = true := by
  rw [whole?] at h
  rcases Option.ite_none_right_eq_some.mp h with ⟨⟨hfinite, _⟩, hn⟩
  refine isSome_ofInt? ?_
  have habs : (truncate x).natAbs = units x / unitsPerOne := by
    rw [truncate]
    split
    · exact (Int.natAbs_neg _).trans (Int.natAbs_natCast _)
    · exact Int.natAbs_natCast _
  rw [← Option.some.inj hn, habs]
  exact Nat.div_le_of_le_mul ((units_le hfinite).trans (Nat.le_of_eq (Nat.mul_comm _ _)))

end Double

end Spreadsheet
