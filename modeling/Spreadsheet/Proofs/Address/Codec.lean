import Spreadsheet.Proofs.Text.Run
import Mathlib.Data.List.Induction

/-!
# Names of Addresses

The name that is written for a position is read as that position.

A name is a run of letters and a run of digits, so reading it splits it at the
right place whatever the column and the row are. What is left is two number
systems: decimal digits for the row, counted from one, and the letters of the
column, which have no zero. For the letters the induction follows the writer,
which takes off the last letter and goes on with the quotient less one.

## Theorems

* `Column.ordinal_letters`: The letters of a column count it from one.
* `Column.letters_injective`: The letters of a column are those of no other column.
* `Column.letters_ordinal`: Every label is the letters of its column.
* `ofId?_cellId`: The name of a position is read as that position.
* `isCanonical_cellId`: Names that are written are canonical.
* `eq_cellId_of_isCanonical`: Canonical names are the ones that are written.
* `eq_of_isCanonical`: No address has two canonical names.
-/

namespace Spreadsheet

namespace Column

theorem toNat_letter {n : Nat} (h : n < 26) : (letter n).toNat = 'A'.toNat + n := by
  have hvalid : ('A'.toNat + n).isValidChar := Or.inl (by show 65 + n < 0xD800; omega)
  rw [letter, Char.ofNat, dif_pos hvalid]
  rfl

theorem isLetter_letter {n : Nat} (h : n < 26) : isLetter (letter n) = true := by
  have hn := toNat_letter h
  rw [isLetter, decide_eq_true_eq]
  constructor
  · show 'A'.toNat ≤ (letter n).toNat
    omega
  · show (letter n).toNat ≤ 'Z'.toNat
    rw [hn]
    show 65 + n ≤ 90
    omega

theorem letters_of_lt {col : Nat} (h : col < 26) : letters col = [letter col] := by
  rw [letters, if_pos h]

theorem letters_of_le {col : Nat} (h : 26 ≤ col) :
    letters col = letters (col / 26 - 1) ++ [letter (col % 26)] := by
  rw [letters, if_neg (Nat.not_lt.mpr h)]

theorem letters_ne_nil (col : Nat) : letters col ≠ [] := by
  rw [letters]
  split
  · exact List.cons_ne_nil _ _
  · exact List.append_ne_nil_of_right_ne_nil _ (List.cons_ne_nil _ _)

theorem isLetter_of_mem_letters (col : Nat) : ∀ c ∈ letters col, isLetter c = true := by
  induction col using letters.induct with
  | case1 col hlt =>
      rw [letters_of_lt hlt, List.forall_mem_singleton]
      exact isLetter_letter hlt
  | case2 col hle ih =>
      rw [letters_of_le (Nat.not_lt.mp hle), List.forall_mem_append, List.forall_mem_singleton]
      exact ⟨ih, isLetter_letter (Nat.mod_lt _ (by omega))⟩

theorem ordinal_append_singleton (cs : List Char) (c : Char) :
    ordinal (cs ++ [c]) = 26 * ordinal cs + (c.toNat - 'A'.toNat + 1) := by
  rw [ordinal, List.foldl_append]
  rfl

/-- The letters of a column count it from one. -/
theorem ordinal_letters (col : Nat) : ordinal (letters col) = col + 1 := by
  induction col using letters.induct with
  | case1 col hlt =>
      rw [letters_of_lt hlt, ← List.nil_append [letter col], ordinal_append_singleton,
        toNat_letter hlt, show ordinal [] = 0 from rfl]
      omega
  | case2 col hle ih =>
      rw [letters_of_le (Nat.not_lt.mp hle), ordinal_append_singleton, ih,
        toNat_letter (Nat.mod_lt _ (by omega))]
      omega

/-- The letters of a column are those of no other column. -/
theorem letters_injective {m n : Nat} (h : letters m = letters n) : m = n := by
  have hordinal := congrArg ordinal h
  rwa [ordinal_letters, ordinal_letters, Nat.add_right_cancel_iff] at hordinal

/-- A letter is the one for its number. -/
theorem letter_toNat_sub {c : Char} (h : isLetter c = true) :
    letter (c.toNat - 'A'.toNat) = c ∧ c.toNat - 'A'.toNat < 26 := by
  rw [isLetter, decide_eq_true_eq] at h
  have hfirst : 'A'.toNat ≤ c.toNat := h.1
  have hlast : c.toNat ≤ 'Z'.toNat := h.2
  constructor
  · rw [letter, Nat.add_sub_cancel' hfirst, Char.ofNat_toNat]
  · have hspan : 'Z'.toNat = 'A'.toNat + 25 := rfl
    omega

/-- The letters that are written for the number that some letters stand for are these
    letters. -/
theorem letters_ordinal {cs : List Char} (hne : cs ≠ []) (h : ∀ c ∈ cs, isLetter c = true) :
    letters (ordinal cs - 1) = cs := by
  -- The letters are written from the last one on, so the induction is on the end of the text.
  induction cs using List.reverseRecOn with
  | nil => exact absurd rfl hne
  | append_singleton cs c ih =>
      rcases letter_toNat_sub (h c (List.mem_append_right _ List.mem_cons_self)) with
        ⟨hletter, hlt⟩
      rw [ordinal_append_singleton]
      by_cases hcs : cs = []
      · -- One letter is written as it is.
        rw [hcs, show ordinal [] = 0 from rfl, List.nil_append,
          show 26 * 0 + (c.toNat - 'A'.toNat + 1) - 1 = c.toNat - 'A'.toNat by omega,
          letters_of_lt hlt, hletter]
      · -- The last letter is the remainder, and those before it are the quotient less one.
        have hfront := ih hcs fun c' hc' => h c' (List.mem_append_left _ hc')
        have hpos : 0 < ordinal cs := by
          rcases List.eq_nil_or_concat cs with heq | ⟨front, last, rfl⟩
          · exact absurd heq hcs
          · rw [List.concat_eq_append, ordinal_append_singleton]
            omega
        generalize hlast : c.toNat - 'A'.toNat = last at hletter hlt ⊢
        rw [letters_of_le (by omega),
          show (26 * ordinal cs + (last + 1) - 1) / 26 - 1 = ordinal cs - 1 by omega,
          show (26 * ordinal cs + (last + 1) - 1) % 26 = last by omega, hfront, hletter]

/-- The letters of a column are a label. -/
theorem index?_letters (col : Nat) : index? (String.ofList (letters col)) = some col := by
  have hletters : (letters col).all isLetter = true :=
    List.all_eq_true.mpr (isLetter_of_mem_letters col)
  rw [index?]
  simp only [String.toList_ofList, hletters]
  rw [if_pos ⟨letters_ne_nil col, trivial⟩, ordinal_letters, Nat.add_sub_cancel]

/-- A label is made of the letters of the column that it names. -/
theorem eq_letters_of_index? {label : String} {col : Nat} (h : index? label = some col) :
    label = String.ofList (letters col) := by
  rw [index?] at h
  split at h
  · rename_i hlabel
    rw [← Option.some.inj h, letters_ordinal hlabel.1 (List.all_eq_true.mp hlabel.2),
      String.ofList_toList]
  · cases h

end Column

namespace Address

theorem rowNumber_toDigits (n : Nat) : rowNumber (Nat.toDigits 10 n) = n := by
  rw [rowNumber, ← Nat.ofDigitChars_eq_foldl, Nat.ofDigitChars_ten_toDigits]

/-- Letters and digits are read as a name, also with a line break behind them. -/
theorem ofChars?_append {letters digits tail : List Char} (hl0 : letters ≠ []) (hd0 : digits ≠ [])
    (hl : ∀ c ∈ letters, Column.isLetter c = true) (hd : ∀ c ∈ digits, Text.isAsciiDigit c = true)
    (htail : tail = [] ∨ tail = ['\n']) (hrow : rowNumber digits ≠ 0) :
    ofChars? (letters ++ (digits ++ tail))
      = some ⟨(rowNumber digits - 1 : Nat), (Column.ordinal letters - 1 : Nat)⟩ := by
  have hstop : Text.StopsAt Column.isLetter digits := by
    cases digits with
    | nil => exact absurd rfl hd0
    | cons c digits =>
        exact Text.StopsAt.cons _ (Text.isLetter_of_isAsciiDigit (hd c List.mem_cons_self))
  have hstop' : Text.StopsAt Text.isAsciiDigit tail := by
    rcases htail with rfl | rfl
    · exact Text.StopsAt.nil _
    · exact Text.StopsAt.cons _ (by decide)
  have hspan := Text.span_of_stop hl (hstop.append hd0 tail)
  have hspan' := Text.span_of_stop hd hstop'
  unfold ofChars?
  simp only [hspan.1, hspan.2, hspan'.1, hspan'.2]
  rw [if_pos ⟨hl0, hd0, htail, hrow⟩]

/-- The name of a position is read as that position. -/
theorem ofId?_cellId (row col : Nat) : ofId? (cellId row col) = some ⟨row, col⟩ := by
  have hrow : rowNumber (Nat.toDigits 10 (row + 1)) = row + 1 := rowNumber_toDigits _
  have hread := ofChars?_append (Column.letters_ne_nil col) Nat.toDigits_ne_nil
    (Column.isLetter_of_mem_letters col) Text.isAsciiDigit_of_mem_toDigits (Or.inl rfl)
    (by omega : rowNumber (Nat.toDigits 10 (row + 1)) ≠ 0)
  rw [List.append_nil, hrow, Column.ordinal_letters] at hread
  rw [ofId?, cellId, String.toList_ofList, hread]
  rfl

theorem canonicalId?_cellId (row col : Nat) :
    canonicalId? (cellId row col) = some (cellId row col) := by
  rw [canonicalId?, ofId?_cellId]
  rfl

theorem isCanonical_cellId (row col : Nat) : IsCanonical (cellId row col) :=
  canonicalId?_cellId row col

/-- A canonical name is the one written for the address it denotes. -/
theorem eq_cellId_of_isCanonical {id : String} {a : Address} (h : IsCanonical id)
    (ha : ofId? id = some a) : id = cellId a.row.toNat a.col.toNat := by
  rw [IsCanonical, canonicalId?, ha, Option.map_some, Option.some.injEq] at h
  exact h.symm

/-- No address has two canonical names. -/
theorem eq_of_isCanonical {id id' : String} {a : Address} (h : IsCanonical id)
    (h' : IsCanonical id') (ha : ofId? id = some a) (ha' : ofId? id' = some a) : id = id' := by
  rw [eq_cellId_of_isCanonical h ha, eq_cellId_of_isCanonical h' ha']

/-- What a name denotes lies on the grid. -/
theorem nonneg_of_ofId? {id : String} {a : Address} (h : ofId? id = some a) :
    0 ≤ a.row ∧ 0 ≤ a.col := by
  rw [ofId?, ofChars?] at h
  split at h
  · rw [Option.some.injEq] at h
    rw [← h]
    exact ⟨Int.natCast_nonneg _, Int.natCast_nonneg _⟩
  · cases h

/-- A canonical name denotes an address, and is the name of it. -/
theorem exists_toId_of_isCanonical {id : String} (h : IsCanonical id) :
    ∃ a, ofId? id = some a ∧ a.toId = .ok id := by
  rcases Option.map_eq_some_iff.mp h with ⟨a, ha, hid⟩
  rcases nonneg_of_ofId? ha with ⟨hrow, hcol⟩
  refine ⟨a, ha, ?_⟩
  rw [toId, if_neg (Int.not_lt.mpr hrow), if_neg (Int.not_lt.mpr hcol), hid]

theorem isCanonical_of_toId {a : Address} {id : String} (h : a.toId = .ok id) :
    IsCanonical id := by
  rw [toId] at h
  split at h
  · cases h
  · split at h
    · cases h
    · rw [← Except.ok.inj h]
      exact isCanonical_cellId _ _

theorem ofId?_of_toId {a : Address} {id : String} (h : a.toId = .ok id) : ofId? id = some a := by
  rw [toId] at h
  split at h
  · cases h
  · split at h
    · cases h
    · rename_i hrow hcol
      rw [← Except.ok.inj h, ofId?_cellId, Int.toNat_of_nonneg (Int.not_lt.mp hrow),
        Int.toNat_of_nonneg (Int.not_lt.mp hcol)]

end Address

end Spreadsheet
