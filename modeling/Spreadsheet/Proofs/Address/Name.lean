import Spreadsheet.Proofs.Address.Codec

/-!
# What Is Read as a Name

Which texts are read as the names of cells, and which cells they name.

A name is spelled with letters and with the digits of a number that is not zero
(`Address.IsSpelling`). Whatever is spelled like this is read, and the name that is
written for the address found leaves out the zeros in front of the number: these are
the only letters or digits that say nothing, since letters have no zero. So the names
of one address differ only in such zeros.

Nothing else should be read, neither blanks around a name nor letters and digits of
other scripts. There is one exception. A line break behind a name is passed over, and
the text is read as the name in front of it.

## Main definitions

* `Address.IsSpelling`: The letters and digits of a name.
* `Address.IsReadExactly`: A text is read exactly if it is spelled like a name.

## Theorems

* `Address.toDigits_ofDigitChars`: Digits without zeros in front are those that are
  written.
* `Address.exists_of_isSpelling`: What is spelled like a name is read.
* `Address.isSpelling_of_ofChars?`: What is read is spelled like a name, apart from a
  line break.
* `Address.isReadExactly_iff`: Only a name with a line break is read wrongly.
* `Address.not_isReadExactly_lineBreak`: But such a text is.
-/

namespace Spreadsheet

namespace Address

/-- Letters and digits that spell the name of a cell. -/
structure IsSpelling (letters digits : List Char) : Prop where
  letters_ne_nil : letters ≠ []
  /-- The letters are those of the alphabet. -/
  isLetter : ∀ c ∈ letters, 'A' ≤ c ∧ c ≤ 'Z'
  digits_ne_nil : digits ≠ []
  /-- The digits are the ten of ASCII. -/
  isDigit : ∀ c ∈ digits, '0' ≤ c ∧ c ≤ '9'
  /-- Rows count from one. -/
  row_pos : 1 ≤ Nat.ofDigitChars 10 digits 0

/-- A text is read as a name exactly if it is spelled like one, and the name of the
    address that it denotes is the text without zeros in front of the number. -/
structure IsReadExactly (text : String) : Prop where
  /-- What is read, and only that, is spelled like a name. -/
  isSome_iff : (ofId? text).isSome = true ↔
    ∃ letters digits, IsSpelling letters digits ∧ text.toList = letters ++ digits
  /-- The canonical name leaves out the zeros in front. -/
  toId_eq : ∀ letters digits a, IsSpelling letters digits → text.toList = letters ++ digits →
    ofId? text = some a → a.toId = .ok (String.ofList (letters ++ digits.dropWhile (· == '0')))

theorem digitChar_toNat_sub {c : Char} (h : '0' ≤ c ∧ c ≤ '9') :
    Nat.digitChar (c.toNat - '0'.toNat) = c ∧ c.toNat - '0'.toNat < 10 := by
  have hfirst : 48 ≤ c.toNat := h.1
  have hlast : c.toNat ≤ 57 := h.2
  have hlt : c.toNat - '0'.toNat < 10 := by
    show c.toNat - 48 < 10
    omega
  refine ⟨Char.toNat_inj.mp ?_, hlt⟩
  rw [Nat.toNat_digitChar_of_lt_ten hlt]
  exact Nat.add_sub_cancel' h.1

/-- To write more digits behind those of a number is to write the number that goes on
    with them. -/
theorem toDigits_append {n : Nat} (hn : 0 < n) {digits : List Char}
    (h : ∀ c ∈ digits, '0' ≤ c ∧ c ≤ '9') :
    Nat.toDigits 10 n ++ digits = Nat.toDigits 10 (Nat.ofDigitChars 10 digits n) := by
  -- The number that was read so far changes from digit to digit.
  induction digits generalizing n with
  | nil => exact List.append_nil _
  | cons c digits ih =>
      rcases digitChar_toNat_sub (h c List.mem_cons_self) with ⟨hchar, hlt⟩
      have hdigit : [c] = Nat.toDigits 10 (c.toNat - '0'.toNat) := by
        rw [Nat.toDigits_of_lt_base hlt, hchar]
      rw [List.append_cons, hdigit, Nat.toDigits_append_toDigits (by decide) hn hlt,
        ih (by omega) fun c' hc' => h c' (List.mem_cons_of_mem _ hc'), Nat.ofDigitChars_cons]

/-- The digits of a number that is not zero are those that are written for it, apart
    from zeros in front. -/
theorem toDigits_ofDigitChars {digits : List Char} (h : ∀ c ∈ digits, '0' ≤ c ∧ c ≤ '9')
    (hpos : 1 ≤ Nat.ofDigitChars 10 digits 0) :
    Nat.toDigits 10 (Nat.ofDigitChars 10 digits 0) = digits.dropWhile (· == '0') := by
  induction digits with
  | nil => cases hpos
  | cons c digits ih =>
      rw [Nat.ofDigitChars_cons] at hpos ⊢
      by_cases hzero : c = '0'
      · -- A zero in front changes neither the number nor what is left without it.
        rw [hzero] at hpos ⊢
        exact ih (fun c' hc' => h c' (List.mem_cons_of_mem _ hc')) hpos
      · -- The number begins here, and from here on all digits are kept.
        rcases digitChar_toNat_sub (h c List.mem_cons_self) with ⟨hchar, hlt⟩
        have hne : c.toNat - '0'.toNat ≠ 0 := fun heq => hzero (by rw [← hchar, heq]; rfl)
        rw [Nat.mul_zero, Nat.zero_add, List.dropWhile_cons_of_neg (by simpa using hzero),
          ← toDigits_append (Nat.pos_of_ne_zero hne) fun c' hc' => h c' (List.mem_cons_of_mem _ hc'),
          Nat.toDigits_of_lt_base hlt, hchar]
        rfl

variable {letters digits : List Char}

/-- What is spelled like a name is read, also with a line break behind it. -/
theorem exists_of_isSpelling (h : IsSpelling letters digits) {tail : List Char}
    (htail : tail = [] ∨ tail = ['\n']) :
    ∃ a, ofChars? (letters ++ (digits ++ tail)) = some a ∧
      a.toId = .ok (String.ofList (letters ++ digits.dropWhile (· == '0'))) := by
  have hletters : ∀ c ∈ letters, Column.isLetter c = true :=
    fun c hc => decide_eq_true (h.isLetter c hc)
  have hnumber : rowNumber digits = Nat.ofDigitChars 10 digits 0 := Nat.ofDigitChars_eq_foldl.symm
  have hpos := h.row_pos
  refine ⟨_, ofChars?_append h.letters_ne_nil h.digits_ne_nil hletters
    (fun c hc => decide_eq_true (h.isDigit c hc)) htail (by omega), ?_⟩
  rw [toId, if_neg (Int.not_lt.mpr (Int.natCast_nonneg _)),
    if_neg (Int.not_lt.mpr (Int.natCast_nonneg _)), Int.toNat_natCast, Int.toNat_natCast, cellId,
    Column.letters_ordinal h.letters_ne_nil hletters, hnumber, Nat.sub_add_cancel hpos,
    toDigits_ofDigitChars h.isDigit hpos]

/-- What is read is spelled like a name, apart from a line break behind it. -/
theorem isSpelling_of_ofChars? {cs : List Char} {a : Address} (h : ofChars? cs = some a) :
    ∃ letters digits tail, IsSpelling letters digits ∧ (tail = [] ∨ tail = ['\n']) ∧
      cs = letters ++ (digits ++ tail) := by
  rw [ofChars?] at h
  split at h
  · rename_i hname
    rcases hname with ⟨hletters, hdigits, htail, hrow⟩
    refine ⟨_, _, _, ⟨hletters, fun c hc => ?_, hdigits, fun c hc => ?_, ?_⟩, htail, ?_⟩
    · exact of_decide_eq_true (show Column.isLetter c = true from List.mem_takeWhile_imp hc)
    · exact of_decide_eq_true (show Text.isAsciiDigit c = true from List.mem_takeWhile_imp hc)
    · rw [Nat.ofDigitChars_eq_foldl]
      exact Nat.pos_of_ne_zero hrow
    · rw [List.takeWhile_append_dropWhile, List.takeWhile_append_dropWhile]
  · cases h

/-- What is spelled like a name has no line break behind it. -/
theorem IsSpelling.append_ne (h : IsSpelling letters digits) (cs : List Char) :
    letters ++ digits ≠ cs ++ ['\n'] := by
  intro heq
  have hbreak : '\n' ∈ letters ++ digits := by
    rw [heq]
    exact List.mem_append_right _ List.mem_cons_self
  rcases List.mem_append.mp hbreak with hmem | hmem
  · exact absurd (h.isLetter _ hmem) (by decide)
  · exact absurd (h.isDigit _ hmem) (by decide)

/-- A text is read as it should be unless it is a name with a line break behind it. -/
theorem isReadExactly_iff (text : String) :
    IsReadExactly text ↔
      ¬ ∃ letters digits, IsSpelling letters digits ∧
        text.toList = letters ++ digits ++ ['\n'] := by
  constructor
  · rintro hread ⟨letters, digits, hspelling, htext⟩
    -- It is read as the name in front of the line break, although it is not spelled so.
    rcases exists_of_isSpelling hspelling (Or.inr rfl) with ⟨a, ha, _⟩
    have hsome : (ofId? text).isSome = true := by
      rw [ofId?, htext, List.append_assoc, ha]
      rfl
    rcases hread.isSome_iff.mp hsome with ⟨letters', digits', hspelling', htext'⟩
    exact hspelling'.append_ne _ (htext'.symm.trans htext)
  · intro hbreak
    refine ⟨⟨fun hsome => ?_, ?_⟩, fun letters digits a hspelling htext ha => ?_⟩
    · rcases Option.isSome_iff_exists.mp hsome with ⟨a, ha⟩
      rcases isSpelling_of_ofChars? ha with ⟨letters, digits, tail, hspelling, htail, htext⟩
      rcases htail with rfl | rfl
      · exact ⟨letters, digits, hspelling, by rw [htext, List.append_nil]⟩
      · exact absurd ⟨letters, digits, hspelling, by rw [htext, List.append_assoc]⟩ hbreak
    · rintro ⟨letters, digits, hspelling, htext⟩
      rcases exists_of_isSpelling hspelling (Or.inl rfl) with ⟨a, ha, _⟩
      rw [ofId?, htext, ← List.append_nil digits, ha]
      rfl
    · rcases exists_of_isSpelling hspelling (Or.inl rfl) with ⟨a', ha', hid⟩
      rw [List.append_nil, ← htext] at ha'
      rwa [Option.some.inj (ha.symm.trans ha')]

/-- A name with a line break behind it is read. -/
theorem not_isReadExactly_lineBreak : ¬ ∀ text, IsReadExactly text := by
  intro hread
  rcases (hread "A1\n").isSome_iff.mp (by decide) with ⟨letters, digits, hspelling, htext⟩
  exact hspelling.append_ne ['A', '1'] htext.symm

end Address

end Spreadsheet
