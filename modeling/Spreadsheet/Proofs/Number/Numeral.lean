import Spreadsheet.Number
import Spreadsheet.Arithmetic.Token
import Spreadsheet.Proofs.Text.Run

/-!
# Numerals

Digits with at most one point among them.

A numeral is what a formula may hold as a number and what a cell shows for the
size of one: digits, perhaps a point, perhaps more digits, and not the point
alone. Its value is the double nearest to what the digits spell. The reader of
tokens takes it as one number, as long as no digit and no point follows, and so
does the reader of literals, unless it ends in its point.

## Main definitions

* `Numeral`: The digits around a point, with `Numeral.chars` and `Numeral.value`.

## Theorems

* `Literal.digitsValue_eq`: What a run of digits spells.
* `Numeral.number?_append`, `Numeral.ofChars_append`: A numeral is one token.
* `Numeral.unsigned?_cases`, `Numeral.value?_cases`: What a literal looks like.
* `Numeral.unsigned?_chars`, `Numeral.value_of_unsigned?`: Numerals as literals.
-/

namespace Spreadsheet

namespace Text

/-- The value of one of the digits `0` to `9`. -/
theorem digitValue?_of_isAsciiDigit {c : Char} (h : isAsciiDigit c = true) :
    digitValue? c = some (c.toNat - '0'.toNat) := by
  rw [isAsciiDigit, decide_eq_true_eq] at h
  have lo : 0x30 ≤ c.toNat := h.1
  have hi : c.toNat ≤ 0x39 := h.2
  have hzero : '0'.toNat = 0x30 := rfl
  simp only [digitValue?, CodeRanges.start?, CodeRanges.startOf?, digitRanges,
    if_neg (Nat.not_lt.mpr lo), if_pos hi, Option.map_some, hzero]
  rw [Nat.mod_eq_of_lt (by omega)]

end Text

namespace Literal

/-- Digits spell the number that they are the decimal digits of. -/
theorem digitsValue_eq {cs : List Char} (h : ∀ c ∈ cs, Text.isAsciiDigit c = true) :
    digitsValue cs = Nat.ofDigitChars 10 cs 0 := by
  have hfrom : ∀ n, cs.foldl (fun n c => 10 * n + (Text.digitValue? c).getD 0) n
      = Nat.ofDigitChars 10 cs n := by
    induction cs with
    | nil => exact fun n => rfl
    | cons c cs ih =>
        intro n
        rw [List.foldl_cons, ih fun d hd => h d (List.mem_cons_of_mem _ hd),
          Nat.ofDigitChars_cons, Text.digitValue?_of_isAsciiDigit (h c List.mem_cons_self),
          Option.getD_some]
  exact hfrom 0

end Literal

/-- Digits with at most one point. -/
structure Numeral where
  /-- The digits before the point. -/
  whole : List Char
  /-- The digits after the point, if there is one. -/
  fraction : Option (List Char)
  isAsciiDigit_whole : ∀ c ∈ whole, Text.isAsciiDigit c = true
  isAsciiDigit_fraction : ∀ cs ∈ fraction, ∀ c ∈ cs, Text.isAsciiDigit c = true
  ne_nil : whole = [] → fraction.getD [] ≠ []

namespace Numeral

/-- The point and the digits after it. -/
def tail (n : Numeral) : List Char :=
  match n.fraction with
  | none => []
  | some cs => '.' :: cs

/-- The text of a numeral. -/
def chars (n : Numeral) : List Char := n.whole ++ n.tail

/-- The double nearest to what a numeral spells. -/
def value (n : Numeral) : Float := Literal.decimalValue n.whole (n.fraction.getD [])

/-- Whether a character would carry a numeral on. -/
def continues (c : Char) : Bool := Text.isDigit c || c == '.'

/-- What carries a numeral on is no quote, no letter and no blank. -/
theorem plain_of_continues {c : Char} (h : continues c = true) :
    c ≠ '"' ∧ Column.isLetter c = false ∧ Text.isBlank c = false := by
  rw [continues, Bool.or_eq_true, beq_iff_eq] at h
  rcases h with h | rfl
  · refine ⟨?_, Text.isLetter_of_isDigit h, Text.isBlank_of_isDigit h⟩
    rintro rfl
    exact absurd h (by decide)
  · decide

theorem isDigit_of_continues {c : Char} (h : continues c = false) : Text.isDigit c = false :=
  (Bool.or_eq_false_iff.mp h).1

theorem ne_point_of_continues {c : Char} (h : continues c = false) : c ≠ '.' := by
  rintro rfl
  exact absurd h (by decide)

theorem continues_of_isDigit {c : Char} (h : Text.isDigit c = true) : continues c = true :=
  Bool.or_eq_true_iff.mpr (Or.inl h)

/-- Digits carry a numeral on, and so does a point between them. -/
theorem continues_of_point {whole fraction : List Char}
    (hwhole : ∀ c ∈ whole, Text.isDigit c = true)
    (hfraction : ∀ c ∈ fraction, Text.isDigit c = true) :
    ∀ c ∈ whole ++ '.' :: fraction, continues c = true := by
  intro c hc
  rcases List.mem_append.mp hc with hc | hc
  · exact continues_of_isDigit (hwhole c hc)
  · rcases List.mem_cons.mp hc with rfl | hc
    · decide
    · exact continues_of_isDigit (hfraction c hc)

variable (n : Numeral)

theorem isDigit_whole : ∀ c ∈ n.whole, Text.isDigit c = true :=
  fun c hc => Text.isDigit_of_isAsciiDigit c (n.isAsciiDigit_whole c hc)

theorem isDigit_fraction : ∀ cs ∈ n.fraction, ∀ c ∈ cs, Text.isDigit c = true :=
  fun cs hcs c hc => Text.isDigit_of_isAsciiDigit c (n.isAsciiDigit_fraction cs hcs c hc)

/-- A numeral is made of digits and points. -/
theorem isAsciiDigit_or_point : ∀ c ∈ n.chars, Text.isAsciiDigit c = true ∨ c = '.' := by
  intro c hc
  rcases List.mem_append.mp hc with hc | hc
  · exact Or.inl (n.isAsciiDigit_whole c hc)
  · unfold tail at hc
    split at hc
    · cases hc
    · rename_i cs hcs
      rcases List.mem_cons.mp hc with hc | hc
      · exact Or.inr hc
      · exact Or.inl (n.isAsciiDigit_fraction cs hcs c hc)

theorem continues_of_mem : ∀ c ∈ n.chars, continues c = true := by
  intro c hc
  rw [continues, Bool.or_eq_true, beq_iff_eq]
  exact (n.isAsciiDigit_or_point c hc).imp_left (Text.isDigit_of_isAsciiDigit c)

theorem chars_ne_nil : n.chars ≠ [] := by
  intro h
  rcases List.append_eq_nil_iff.mp h with ⟨hwhole, htail⟩
  refine n.ne_nil hwhole ?_
  unfold tail at htail
  split at htail
  · rename_i hfraction
    rw [hfraction]
    rfl
  · cases htail

/-- The whole part is read up to the point, or to the end of the numeral. -/
theorem span_whole {rest : List Char} (h : Text.StopsAt continues rest) :
    (n.chars ++ rest).takeWhile Text.isDigit = n.whole ∧
      (n.chars ++ rest).dropWhile Text.isDigit = n.tail ++ rest := by
  rw [chars, List.append_assoc]
  refine Text.span_of_stop n.isDigit_whole ?_
  unfold tail
  split
  · exact fun c hc => isDigit_of_continues (h c hc)
  · exact Text.StopsAt.cons _ (by decide)

/-- The token at the start of a text is the numeral there. -/
theorem number?_append {rest : List Char} (h : Text.StopsAt continues rest) :
    Token.number? (n.chars ++ rest) = some (n.value, n.chars.length) := by
  rcases n.span_whole h with ⟨htake, hdrop⟩
  unfold Token.number?
  simp only [htake, hdrop]
  cases hfraction : n.fraction with
  | none =>
      -- Without a point there are digits before it, and what follows is no point.
      have hwhole : n.whole ≠ [] := fun hw => n.ne_nil hw (by rw [hfraction]; rfl)
      have hne : n.whole.isEmpty = false := List.isEmpty_eq_false_iff.mpr hwhole
      have htail : n.tail = [] := by rw [tail, hfraction]
      rw [value, chars, htail, hfraction, List.append_nil, List.nil_append]
      cases rest with
      | nil => rw [hne]; rfl
      | cons c rest =>
          have hc := ne_point_of_continues (h c rfl)
          split
          · rename_i heq
            exact absurd (List.cons.inj heq).1 hc
          · rw [hne]
            rfl
  | some cs =>
      -- Behind the point the digits are read up to the end of the numeral.
      have htail : n.tail = '.' :: cs := by rw [tail, hfraction]
      have hspan := Text.span_of_stop (n.isDigit_fraction cs hfraction)
        (fun c hc => isDigit_of_continues (h c hc))
      have hne : (n.whole.isEmpty && cs.isEmpty) = false := by
        rw [Bool.and_eq_false_iff, List.isEmpty_eq_false_iff, List.isEmpty_eq_false_iff]
        by_cases hwhole : n.whole = []
        · have := n.ne_nil hwhole
          rw [hfraction] at this
          exact Or.inr this
        · exact Or.inl hwhole
      rw [value, chars, htail, hfraction, List.cons_append]
      simp only [hspan.1, hne, Bool.false_eq_true, if_false, Option.getD_some, List.length_append,
        List.length_cons]
      rw [Nat.add_assoc, Nat.add_comm 1]

end Numeral

namespace Token

theorem ofCharsFrom_eq (skip : Nat) (cs : List Char) :
    ofCharsFrom skip cs = ofChars (cs.drop skip) := by
  induction cs generalizing skip with
  | nil => rw [List.drop_nil]; cases skip <;> rfl
  | cons c cs ih =>
      cases skip with
      | zero => rfl
      | succ skip => exact ih skip

end Token

namespace Numeral

variable (n : Numeral)

/-- A numeral is one token. -/
theorem ofChars_append {rest : List Char} (h : Text.StopsAt continues rest) :
    Token.ofChars (n.chars ++ rest) = (Token.ofChars rest).map (Token.number n.value :: ·) := by
  have hnumber := n.number?_append h
  cases hcs : n.chars with
  | nil => exact absurd hcs n.chars_ne_nil
  | cons c cs =>
      have hc : continues c = true := n.continues_of_mem c (by rw [hcs]; exact List.mem_cons_self)
      rw [hcs, List.cons_append] at hnumber
      rw [List.cons_append, Token.ofChars, Token.ofCharsFrom, (plain_of_continues hc).2.2, hnumber]
      simp only [Bool.false_eq_true, if_false, List.length_cons, Nat.add_sub_cancel]
      rw [Token.ofCharsFrom_eq, List.drop_left]

/-- A literal without a sign is a run of digits, or has a point with digits behind it. -/
theorem unsigned?_cases {cs : List Char} {x : Float} (h : Literal.unsigned? cs = some x) :
    (cs ≠ [] ∧ (∀ c ∈ cs, Text.isDigit c = true) ∧ x = Literal.decimalValue cs []) ∨
      ∃ whole fraction, cs = whole ++ '.' :: fraction ∧ (∀ c ∈ whole, Text.isDigit c = true) ∧
        (∀ c ∈ fraction, Text.isDigit c = true) ∧ fraction ≠ [] ∧
        x = Literal.decimalValue whole fraction := by
  rcases Text.exists_stop Text.isDigit cs with ⟨whole, rest, rfl, hwhole, hrest⟩
  unfold Literal.unsigned? at h
  simp only [(Text.span_of_stop hwhole hrest).1, (Text.span_of_stop hwhole hrest).2] at h
  cases rest with
  | nil =>
      simp only at h
      rw [List.append_nil]
      split at h
      · cases h
      · rename_i hne
        exact Or.inl ⟨by simpa using hne, hwhole, (Option.some.inj h).symm⟩
  -- What stops the digits is the point, or there is no literal.
  | cons c fraction =>
      simp only at h
      split at h
      · rename_i hpoint
        exact Or.inr ⟨whole, fraction, by rw [hpoint.1], hwhole,
          List.all_eq_true.mp hpoint.2.2, hpoint.2.1, (Option.some.inj h).symm⟩
      · cases h

/-- A literal without a sign is made of digits and points. -/
theorem continues_of_unsigned? {cs : List Char} {x : Float} (h : Literal.unsigned? cs = some x) :
    cs ≠ [] ∧ ∀ c ∈ cs, continues c = true := by
  rcases unsigned?_cases h with ⟨hne, hdigits, _⟩ | ⟨whole, fraction, rfl, hwhole, hfraction, _⟩
  · exact ⟨hne, fun c hc => continues_of_isDigit (hdigits c hc)⟩
  · exact ⟨List.append_ne_nil_of_right_ne_nil _ (List.cons_ne_nil _ _),
      continues_of_point hwhole hfraction⟩

/-- A literal is one without a sign, or one with a minus sign in front. -/
theorem value?_cases {cs : List Char} {x : Float} (h : Literal.value? cs = some x) :
    Literal.unsigned? cs = some x ∨
      ∃ ds y, cs = '-' :: ds ∧ Literal.unsigned? ds = some y ∧ x = -y := by
  unfold Literal.value? at h
  split at h
  · rename_i ds
    rcases Option.map_eq_some_iff.mp h with ⟨y, hy, rfl⟩
    exact Or.inr ⟨ds, y, rfl, hy, rfl⟩
  · exact Or.inl h

/-- A literal is made of digits and points, with a minus sign. -/
theorem continues_of_value? {cs : List Char} {x : Float} (h : Literal.value? cs = some x) :
    ∀ c ∈ cs, c = '-' ∨ continues c = true := by
  intro c hc
  rcases value?_cases h with hx | ⟨ds, y, rfl, hy, _⟩
  · exact Or.inr ((continues_of_unsigned? hx).2 c hc)
  · exact (List.mem_cons.mp hc).imp_right ((continues_of_unsigned? hy).2 c)

/-- A literal has no quotes and no letters. -/
theorem plain_of_value? {cs : List Char} {x : Float} (h : Literal.value? cs = some x) :
    ∀ c ∈ cs, c ≠ '"' ∧ Column.isLetter c = false := by
  intro c hc
  rcases continues_of_value? h c hc with rfl | hcontinues
  · decide
  · rcases plain_of_continues hcontinues with ⟨hquote, hletter, _⟩
    exact ⟨hquote, hletter⟩

/-- A numeral that does not end in its point is a literal. -/
theorem unsigned?_chars (h : n.fraction ≠ some []) : Literal.unsigned? n.chars = some n.value := by
  rcases n.span_whole (Text.StopsAt.nil continues) with ⟨htake, hdrop⟩
  rw [List.append_nil] at htake hdrop
  unfold Literal.unsigned?
  simp only [htake, hdrop, List.append_nil]
  cases hfraction : n.fraction with
  | none =>
      have hwhole : n.whole ≠ [] := fun hw => n.ne_nil hw (by rw [hfraction]; rfl)
      rw [tail, value, hfraction]
      simp only [List.isEmpty_eq_false_iff.mpr hwhole, Bool.false_eq_true, if_false,
        Option.getD_none]
  | some cs =>
      have hcs : cs ≠ [] := fun hcs => h (by rw [hfraction, hcs])
      have hall : cs.all Text.isDigit = true :=
        List.all_eq_true.mpr (n.isDigit_fraction cs hfraction)
      rw [tail, value, hfraction]
      simp only [hall, and_true, ne_eq, hcs, not_false_eq_true, if_true, Option.getD_some]

/-- A numeral that is read as a literal has the value of one. -/
theorem value_of_unsigned? {x : Float} (h : Literal.unsigned? n.chars = some x) : x = n.value := by
  by_cases hfraction : n.fraction = some []
  · -- A point at the end makes it no literal.
    rcases n.span_whole (Text.StopsAt.nil continues) with ⟨htake, hdrop⟩
    rw [List.append_nil] at htake hdrop
    unfold Literal.unsigned? at h
    simp only [htake, hdrop, List.append_nil, tail, hfraction, ne_eq, not_true_eq_false, false_and,
      and_false, if_false, reduceCtorEq] at h
  · rw [n.unsigned?_chars hfraction] at h
    exact (Option.some.inj h).symm

end Numeral

end Spreadsheet
