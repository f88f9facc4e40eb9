import Spreadsheet.Document
import Spreadsheet.Proofs.Arithmetic.Splicing
import Spreadsheet.Proofs.Number.Whole

/-!
# Displayed Numbers Lose Nothing

Every finite double is read from the text that a cell shows for it.

The text is a numeral with or without a minus sign, whatever the size of the number:
the digits of a whole number, or the shortest decimal laid out in full. A decimal that
is shown has no zeros at its end, and laid out it has none behind the point. Such a text
is a literal, and the double nearest to it is the one that was shown. So it can be typed
in again, taken from a document and put into arithmetic, and only the sign of a zero is
lost on the way.

## Main definitions

* `Numeral.IsTrimmed`: A numeral has no zero at the end of its fraction.
* `Numeral.IsPlain`: What a displayed number looks like.

## Theorems

* `Decimal.getLast?_fractionDigits`: A decimal without zeros at its end, laid out.
* `Number.exists_numeral_finite`: What is displayed for a finite double.
* `Number.display_reads_back`: A displayed double is read back.
-/

namespace Spreadsheet

open Double (Alike)

namespace Numeral

/-- There is no zero at the end of the digits after the point. -/
def IsTrimmed (n : Numeral) : Prop := ∀ cs ∈ n.fraction, cs.getLast? ≠ some '0'

/-- Digits, with at most one point and at most one minus sign in front, and without a zero
    at the end if there is a point. -/
structure IsPlain (cs : List Char) : Prop where
  /-- There are no other characters. -/
  digits : ∀ c ∈ cs, Text.isAsciiDigit c = true ∨ c = '.' ∨ c = '-'
  /-- There is at most one point. -/
  point : cs.count '.' ≤ 1
  /-- A minus sign comes first. -/
  minus : '-' ∉ cs.tail
  /-- There is no zero at the end behind a point. -/
  trimmed : '.' ∈ cs → cs.getLast? ≠ some '0'

variable (n : Numeral)

theorem count_point_whole : n.whole.count '.' = 0 := by
  refine List.count_eq_zero.mpr fun hmem => ?_
  exact absurd (n.isAsciiDigit_whole '.' hmem) (by decide)

theorem count_point : n.chars.count '.' ≤ 1 := by
  rw [chars, List.count_append, n.count_point_whole, tail]
  cases hfraction : n.fraction with
  | none => exact Nat.zero_le 1
  | some cs =>
      have hcount : cs.count '.' = 0 := List.count_eq_zero.mpr fun hmem =>
        absurd (n.isAsciiDigit_fraction cs hfraction '.' hmem) (by decide)
      simp only [List.count_cons_self, hcount, Nat.le_refl]

theorem minus_not_mem : '-' ∉ n.chars := by
  intro hmem
  rcases n.isAsciiDigit_or_point '-' hmem with hdigit | hpoint
  · exact absurd hdigit (by decide)
  · exact absurd hpoint (by decide)

variable {n} in
theorem IsTrimmed.getLast? (h : n.IsTrimmed) (hpoint : '.' ∈ n.chars) :
    n.chars.getLast? ≠ some '0' := by
  cases hfraction : n.fraction with
  | none =>
      -- A numeral without a fraction has no point.
      rw [chars, tail, hfraction, List.append_nil] at hpoint
      exact absurd (n.isAsciiDigit_whole '.' hpoint) (by decide)
  | some cs =>
      have hlast := h cs hfraction
      rw [chars, tail, hfraction]
      simp only [List.getLast?_append, List.getLast?_cons]
      cases hcs : cs.getLast? with
      | none =>
          show some '.' ≠ some '0'
          decide
      | some c =>
          rw [hcs] at hlast
          exact hlast

variable {n} in
/-- A numeral with or without a minus sign is plain. -/
theorem IsTrimmed.isPlain (h : n.IsTrimmed) (negative : Bool) :
    IsPlain (if negative then '-' :: n.chars else n.chars) := by
  have hdigits : ∀ c ∈ n.chars, Text.isAsciiDigit c = true ∨ c = '.' ∨ c = '-' :=
    fun c hc => (n.isAsciiDigit_or_point c hc).imp_right Or.inl
  cases negative with
  | false => exact ⟨hdigits, n.count_point, fun hmem => n.minus_not_mem (List.mem_of_mem_tail hmem),
      h.getLast?⟩
  | true =>
      refine ⟨fun c hc => ?_, ?_, n.minus_not_mem, fun hpoint => ?_⟩
      · rcases List.mem_cons.mp hc with rfl | hc
        · exact Or.inr (Or.inr rfl)
        · exact hdigits c hc
      · rw [if_pos rfl, List.count_cons_of_ne (by decide)]
        exact n.count_point
      · have hmem := (List.mem_cons.mp hpoint).resolve_left (by decide)
        rw [if_pos rfl, List.getLast?_cons_of_ne_nil (List.ne_nil_of_mem hmem)]
        exact h.getLast? hmem

/-- A numeral is read with its sign, and there are no blanks to leave out. -/
theorem value?_signed (h : n.fraction ≠ some []) (negative : Bool) :
    Literal.value? (if negative then '-' :: n.chars else n.chars)
      = some (if negative then -n.value else n.value) := by
  cases negative with
  | true =>
      show (Literal.unsigned? n.chars).map (fun x => -x) = _
      rw [n.unsigned?_chars h]
      rfl
  | false =>
      rw [if_neg Bool.false_ne_true, if_neg Bool.false_ne_true, Literal.value?]
      · exact n.unsigned?_chars h
      · intro cs hcs
        exact n.minus_not_mem (by rw [hcs]; exact List.mem_cons_self)

theorem trim_signed (negative : Bool) :
    Text.trim (if negative then '-' :: n.chars else n.chars)
      = if negative then '-' :: n.chars else n.chars := by
  have hblank : ∀ c ∈ n.chars, Text.isBlank c = false :=
    fun c hc => (plain_of_continues (n.continues_of_mem c hc)).2.2
  refine Text.trim_eq_self fun c hc => ?_
  cases negative with
  | false => exact hblank c hc
  | true =>
      rcases List.mem_cons.mp hc with rfl | hc
      · decide
      · exact hblank c hc

end Numeral

/-- A decimal without zeros at its end has none behind the point when it is laid out. -/
theorem Decimal.getLast?_fractionDigits {d : Decimal} (h : d.exponent < 0)
    (hmod : d.coefficient % 10 ≠ 0) : d.fractionDigits.getLast? ≠ some '0' := by
  intro hlast
  rcases List.getLast?_eq_some_iff.mp hlast with ⟨cs, hcs⟩
  have hspells := ofDigitChars_append h
  rw [hcs, ← List.append_assoc, Nat.ofDigitChars_append] at hspells
  -- The last digit is added to ten times the others.
  have hlastDigit : Nat.ofDigitChars 10 ['0'] (Nat.ofDigitChars 10 (d.wholeDigits ++ cs) 0)
      = 10 * Nat.ofDigitChars 10 (d.wholeDigits ++ cs) 0 + 0 := rfl
  omega

/-- The shortest decimal of a double that is not whole has no zeros at its end. -/
theorem coefficient_shortest_mod_ten {x : Float} (h : (shortest x).exponent < 0) :
    (shortest x).coefficient % 10 ≠ 0 := by
  rcases shortest_cases x with ⟨d, hd, _, _⟩
  rw [hd] at h ⊢
  refine d.normalize_mod_ten fun hzero => ?_
  rw [Decimal.normalize, if_pos hzero] at h
  exact absurd h (by decide)

namespace Number

variable {x : Float}

/-- What is displayed for a finite double. -/
theorem exists_numeral_finite (h : x.isFinite = true) :
    ∃ (negative : Bool) (m : Numeral), m.fraction ≠ some [] ∧ m.IsTrimmed ∧
      (float x).display.toList = (if negative then '-' :: m.chars else m.chars) ∧
      Alike (if negative then -m.value else m.value) x := by
  cases hwhole : Double.whole? x with
  | some n =>
      rcases exists_numeral_whole n with ⟨negative, m, hnone, hdisplay, hvalue⟩
      -- A double that is whole is displayed like the whole number.
      have hnormal : (float x).normalize = (whole n).normalize := by
        show ofFloat x = whole n
        rw [ofFloat, hwhole]
      have hsame : (float x).display = (whole n).display := by rw [display, hnormal, display]
      refine ⟨negative, m, ?_, ?_, by rw [hsame, hdisplay], ?_⟩
      · rw [hnone]
        exact Option.some_ne_none _ ∘ Eq.symm
      · intro cs hcs
        rw [hnone] at hcs
        cases hcs
      · rw [← hvalue]
        exact Double.alike_ofInt hwhole
  | none =>
      -- All others are displayed as their shortest decimal, with digits behind the point.
      have hexponent := exponent_shortest_neg (Double.units_mod_of_whole? h hwhole)
      refine ⟨Double.isNegative x, (shortest x).numeral hexponent,
        Decimal.fraction_numeral_ne_nil hexponent, ?_, toList_display_float h hwhole hexponent, ?_⟩
      · intro cs hcs
        rw [← Option.some.inj hcs]
        exact Decimal.getLast?_fractionDigits hexponent (coefficient_shortest_mod_ten hexponent)
      · rw [Decimal.value_numeral hexponent]
        exact Or.inl (Double.readsBack h)

/-- Whatever finite double a cell shows, the text is plain and is a literal. As a literal
    and as an argument it is read as the same number, and so it is when it is typed in
    again, when the double comes with a document, and when it is put into arithmetic. -/
theorem display_reads_back (h : x.isFinite = true) :
    Numeral.IsPlain (float x).display.toList ∧
      (Literal.value? (float x).display.toList).isSome = true ∧
      ofText? (float x).display = some (ofFloat x) ∧
      (∃ y, Argument.number? (some (.text (float x).display)) = .ok (some y) ∧ (y == x) = true) ∧
      (∀ style, (Cell.ofText (float x).display style).currentValue = .number (ofFloat x)) ∧
      (∀ id, (Cell.ofEntry id (.object [("value", .number (.float x))])).map Cell.currentValue
        = .ok (.number (ofFloat x))) ∧
      (∃ ts y, Arithmetic.IsWritten 1 (Value.number (.float x)).spliced ts y ∧ (y == x) = true) ∧
      (Value.number (.float x)).spliced.filter Arithmetic.survives
        = (Value.number (.float x)).spliced := by
  rcases exists_numeral_finite h with ⟨negative, m, hfraction, htrimmed, hdisplay, halike⟩
  have hbeq := halike.beq (Double.not_isNaN_isInf h).1
  have hplain := htrimmed.isPlain negative
  have hvalue := m.value?_signed hfraction negative
  have htrim := m.trim_signed negative
  rcases Arithmetic.exists_isWritten_signed negative m with ⟨⟨ts, hwritten⟩, hsurvives⟩
  rw [← hdisplay] at hplain hvalue htrim hwritten hsurvives
  -- What is displayed is a numeral with a sign or without one, and all readers take it.
  have hread : ofText? (float x).display = some (ofFloat x) := by
    rw [ofText?, htrim, hvalue, Option.map_some, halike.ofFloat_eq]
  have hliteral : Value.ofLiteral (float x).display = .number (ofFloat x) := by
    rw [Value.ofLiteral, hread]
  refine ⟨hplain, ?_, hread, ⟨_, ?_, hbeq⟩, fun style => ?_, fun id => ?_,
    ⟨ts, _, hwritten, hbeq⟩, List.filter_eq_self.mpr hsurvives⟩
  · rw [hvalue]
    rfl
  · rw [Argument.number?, htrim, hvalue]
  · have hhead : ¬ (float x).display.toList.head? = some '=' := fun hhead => by
      have hdigits := hplain.digits '=' (List.mem_of_head? hhead)
      exact absurd hdigits (by decide)
    rw [Cell.ofText, if_neg hhead]
    exact hliteral
  · exact congrArg Except.ok hliteral

/-- The least positive double is displayed with all its zeros. -/
theorem display_reads_back_least :
    Float.isFinite 5e-324 = true ∧ Numeral.IsPlain (float 5e-324).display.toList ∧
      ofText? (float 5e-324).display = some (ofFloat 5e-324) := by
  have h : Float.isFinite 5e-324 = true := by decide +kernel
  exact ⟨h, (display_reads_back h).1, (display_reads_back h).2.2.1⟩

end Number

end Spreadsheet
