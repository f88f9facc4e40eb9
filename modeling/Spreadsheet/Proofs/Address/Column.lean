import Spreadsheet.Proofs.Address.Codec
import Mathlib.Data.List.Shortlex

/-!
# The Order of Columns

Columns stand in the order of their labels.

Labels have no zero, so a column further to the right never has a shorter label, and
among labels of one length the first letter that differs decides: the order is the
one that takes shorter labels first and then goes by the alphabet. The proof follows
the writer. To write a column it takes off the last letter and goes on with the
quotient less one, and of two columns either the quotients are in order already or
they are the same and the last letters decide.

With what is known of single labels this makes columns and labels, and positions and
their names, two ways of saying the same.

## Theorems

* `Column.shortlex_letters`: Columns stand in the order of their labels.
* `Address.bind_label_index`: Every column and every label is read back, columns
  stand in the order of their labels, and every position is read back from its name.
-/

namespace Spreadsheet

namespace Column

theorem letter_lt_letter {m n : Nat} (h : m < n) (hn : n < 26) : letter m < letter n := by
  show (letter m).toNat < (letter n).toNat
  rw [toNat_letter (h.trans hn), toNat_letter hn]
  omega

/-- Of two lists of one length, what is put behind them decides nothing that was
    decided before. -/
theorem lex_append {s t : List Char} (h : List.Lex (· < ·) s t) (hlength : s.length = t.length)
    (a b : List Char) : List.Lex (· < ·) (s ++ a) (t ++ b) := by
  induction h with
  | nil => cases hlength
  | cons _ ih => exact .cons (ih (Nat.succ.inj hlength))
  | rel hlt => exact .rel hlt

theorem shortlex_concat {s t : List Char} (h : List.Shortlex (· < ·) s t) (c d : Char) :
    List.Shortlex (· < ·) (s ++ [c]) (t ++ [d]) := by
  have hlengths : (s ++ [c]).length = s.length + 1 ∧ (t ++ [d]).length = t.length + 1 :=
    ⟨List.length_append, List.length_append⟩
  rcases List.shortlex_def.mp h with hlength | ⟨hlength, hlex⟩
  · exact .of_length_lt (by omega)
  · exact .of_lex (by omega) (lex_append hlex hlength [c] [d])

/-- Columns stand in the order of their labels. -/
theorem shortlex_letters {m n : Nat} (h : m < n) :
    List.Shortlex (· < ·) (letters m) (letters n) := by
  induction n using letters.induct generalizing m with
  | case1 n hn =>
      rw [letters_of_lt (h.trans hn), letters_of_lt hn, List.shortlex_singleton_iff]
      exact letter_lt_letter h hn
  | case2 n hn ih =>
      rw [letters_of_le (Nat.not_lt.mp hn)]
      by_cases hm : m < 26
      · -- One letter is shorter than several.
        have hpos := List.length_pos_of_ne_nil (letters_ne_nil (n / 26 - 1))
        refine .of_length_lt ?_
        rw [letters_of_lt hm, List.length_append, List.length_singleton, List.length_singleton]
        omega
      · rw [letters_of_le (Nat.not_lt.mp hm)]
        by_cases hquotient : m / 26 < n / 26
        · -- What is in front of the last letters decides.
          exact shortlex_concat (ih (by omega)) _ _
        · -- The columns differ in the last letter only.
          rw [show m / 26 = n / 26 by omega]
          refine List.Shortlex.append_left ((List.shortlex_singleton_iff _ _).mpr ?_) _
          exact letter_lt_letter (by omega) (Nat.mod_lt _ (by omega))

/-- The label of a column on the grid. -/
theorem label_natCast (n : Nat) : label n = .ok (String.ofList (letters n)) := by
  rw [label, if_neg (Int.not_lt.mpr (Int.natCast_nonneg n)), Int.toNat_natCast]

theorem index_of_index? {text : String} {col : Nat} (h : index? text = some col) :
    index text = .ok col := by rw [index, h]

/-- A text of letters names the column that has them. -/
theorem index_of_letters {text : String} (hne : text ≠ "")
    (h : ∀ c ∈ text.toList, 'A' ≤ c ∧ c ≤ 'Z') :
    ∃ col, index text = .ok col ∧ String.ofList (letters col) = text := by
  have hletters : ∀ c ∈ text.toList, isLetter c = true := fun c hc => decide_eq_true (h c hc)
  have hnil : text.toList ≠ [] := fun hnil => hne (String.toList_eq_nil_iff.mp hnil)
  refine ⟨ordinal text.toList - 1, index_of_index? ?_, ?_⟩
  · rw [index?]
    exact if_pos ⟨hnil, List.all_eq_true.mpr hletters⟩
  · rw [letters_ordinal hnil hletters, String.ofList_toList]

end Column

namespace Address

/-- Every column and every label is read back, columns stand in the order of their
    labels, and every position is read back from its name. -/
theorem bind_label_index :
    (∀ n : Nat, (Column.label n).bind Column.index = .ok n) ∧
    (∀ text : String, text ≠ "" → (∀ c ∈ text.toList, 'A' ≤ c ∧ c ≤ 'Z') →
      ((Column.index text).bind fun col => Column.label col) = .ok text) ∧
    (∀ m n : Nat, m < n → ∃ a b, Column.label m = .ok a ∧ Column.label n = .ok b ∧
      List.Shortlex (· < ·) a.toList b.toList) ∧
    ∀ row col : Nat, (toId ⟨row, col⟩).map ofId? = .ok (some ⟨row, col⟩) := by
  refine ⟨fun n => ?_, fun text hne hletters => ?_, fun m n hlt => ?_, fun row col => ?_⟩
  · rw [Column.label_natCast]
    exact Column.index_of_index? (Column.index?_letters n)
  · rcases Column.index_of_letters hne hletters with ⟨col, hcol, htext⟩
    rw [hcol]
    exact (Column.label_natCast col).trans (congrArg _ htext)
  · refine ⟨_, _, Column.label_natCast m, Column.label_natCast n, ?_⟩
    rw [String.toList_ofList, String.toList_ofList]
    exact Column.shortlex_letters hlt
  · rw [toId, if_neg (Int.not_lt.mpr (Int.natCast_nonneg row)),
      if_neg (Int.not_lt.mpr (Int.natCast_nonneg col))]
    exact congrArg Except.ok (ofId?_cellId row col)

/-- The last label of two letters, and the first of three. -/
theorem bind_label_index_carry :
    "ZZ" ≠ "" ∧ (∀ c ∈ "ZZ".toList, 'A' ≤ c ∧ c ≤ 'Z') ∧ 701 < 702 ∧
      ((Column.index "ZZ").bind fun col => Column.label col) = .ok "ZZ" ∧
      ∃ a b, Column.label (701 : Nat) = .ok a ∧ Column.label (702 : Nat) = .ok b ∧
        List.Shortlex (· < ·) a.toList b.toList := by
  have hletters : ∀ c ∈ "ZZ".toList, 'A' ≤ c ∧ c ≤ 'Z' := by
    intro c hc
    rw [show "ZZ".toList = ['Z', 'Z'] from rfl, List.mem_cons, List.mem_singleton, or_self] at hc
    rw [hc]
    exact ⟨by decide, by decide⟩
  exact ⟨by decide, hletters, by decide, bind_label_index.2.1 "ZZ" (by decide) hletters,
    bind_label_index.2.2.1 701 702 (by decide)⟩

end Address

end Spreadsheet
