import Spreadsheet.Address
import Spreadsheet.Text.Blank
import Mathlib.Data.List.TakeWhile

/-!
# Runs of Characters

Reading as far as a class of characters goes.

Names, digits and blanks are all read with `takeWhile`: a run of characters of
one class, ended by a character outside it or by the end of the text.
`span_of_stop` says what is read when the run is known, and `exists_stop` that
every text is a run and a rest of this kind, so an argument about a reader can
speak of the run and never of `takeWhile`.

The classes themselves are kept apart here once and for all: a letter of a
column, a digit of any script and a blank are three different things.

## Main definitions

* `StopsAt`: A text does not go on with a character of a class.

## Theorems

* `span_of_stop`: A run is read up to where it stops.
* `exists_stop`: Every text is a run and a rest.
* `mem_of_mem_trim`, `mem_trim`: What is between the blanks around a text.
* `isDigit_of_isLetter`, `isLetter_of_isDigit`: Letters are no digits.
* `isLetter_of_isBlank`, `isDigit_of_isBlank`: Blanks are neither.
-/

namespace Spreadsheet

namespace Text

/-- The text does not go on with a character of the class. -/
def StopsAt (p : Char → Bool) (cs : List Char) : Prop := ∀ c ∈ cs.head?, p c = false

namespace StopsAt

theorem nil (p : Char → Bool) : StopsAt p [] := fun c hc => by cases hc

theorem cons {p : Char → Bool} {c : Char} (cs : List Char) (h : p c = false) :
    StopsAt p (c :: cs) := by
  intro d hd
  rw [List.head?_cons, Option.mem_some_iff] at hd
  rw [← hd]
  exact h

/-- A text with something in front stops where that does. -/
theorem append {p : Char → Bool} {a : List Char} (ha : a ≠ []) (h : StopsAt p a)
    (b : List Char) : StopsAt p (a ++ b) := by
  cases a with
  | nil => exact absurd rfl ha
  | cons c a => exact cons _ (h c rfl)

end StopsAt

/-- A run of a class is read up to where it stops. -/
theorem span_of_stop {p : Char → Bool} {run rest : List Char} (hrun : ∀ c ∈ run, p c = true)
    (hrest : StopsAt p rest) :
    (run ++ rest).takeWhile p = run ∧ (run ++ rest).dropWhile p = rest := by
  rw [List.takeWhile_append_of_pos hrun, List.dropWhile_append_of_pos hrun]
  cases rest with
  | nil => exact ⟨List.append_nil run, rfl⟩
  | cons c rest =>
      have hc : ¬ p c = true := by rw [hrest c rfl]; exact Bool.false_ne_true
      rw [List.takeWhile_cons_of_neg hc, List.dropWhile_cons_of_neg hc, List.append_nil]
      exact ⟨rfl, rfl⟩

/-- Every text is a run of a class and a rest that does not go on with it. -/
theorem exists_stop (p : Char → Bool) (cs : List Char) :
    ∃ run rest, cs = run ++ rest ∧ (∀ c ∈ run, p c = true) ∧ StopsAt p rest := by
  refine ⟨cs.takeWhile p, cs.dropWhile p, List.takeWhile_append_dropWhile.symm,
    fun c hc => List.mem_takeWhile_imp hc, fun c hc => ?_⟩
  have h := List.head?_dropWhile_not p cs
  rw [Option.mem_def.mp hc] at h
  simpa only [Bool.not_eq_true] using h

/-- A text is its trimmed text with blanks on both sides. -/
theorem exists_blanks (cs : List Char) :
    ∃ front back, cs = front ++ (trim cs ++ back) ∧ (∀ c ∈ front, isBlank c = true) ∧
      ∀ c ∈ back, isBlank c = true := by
  have hright : ∀ ds : List Char,
      ds = trimRight ds ++ (ds.reverse.takeWhile isBlank).reverse := by
    intro ds
    rw [trimRight, ← List.reverse_append, List.takeWhile_append_dropWhile, List.reverse_reverse]
  refine ⟨cs.takeWhile isBlank, ((trimLeft cs).reverse.takeWhile isBlank).reverse, ?_,
    fun c hc => List.mem_takeWhile_imp hc,
    fun c hc => List.mem_takeWhile_imp (List.mem_reverse.mp hc)⟩
  rw [trim, ← hright, trimLeft, List.takeWhile_append_dropWhile]

theorem mem_of_mem_trim {c : Char} {cs : List Char} (hc : c ∈ trim cs) : c ∈ cs := by
  rcases exists_blanks cs with ⟨front, back, hcs, _, _⟩
  rw [hcs]
  exact List.mem_append_right _ (List.mem_append_left _ hc)

/-- Only blanks are missing from the trimmed text. -/
theorem mem_trim {c : Char} {cs : List Char} (hc : c ∈ cs) (hblank : isBlank c = false) :
    c ∈ trim cs := by
  rcases exists_blanks cs with ⟨front, back, hcs, hfront, hback⟩
  have hnot : ∀ {blanks : List Char}, (∀ c ∈ blanks, isBlank c = true) → c ∉ blanks := by
    intro blanks hall hmem
    rw [hall c hmem] at hblank
    cases hblank
  rw [hcs, List.mem_append, List.mem_append] at hc
  exact (hc.resolve_left (hnot hfront)).resolve_right (hnot hback)

/-- A text without blanks is its own trimmed text. -/
theorem trim_eq_self {cs : List Char} (h : ∀ c ∈ cs, isBlank c = false) : trim cs = cs := by
  have hdrop : ∀ as : List Char, (∀ c ∈ as, isBlank c = false) → as.dropWhile isBlank = as := by
    intro as has
    cases as with
    | nil => rfl
    | cons a as =>
        rw [List.dropWhile_cons_of_neg]
        rw [has a List.mem_cons_self]
        exact Bool.false_ne_true
  rw [trim, trimLeft, hdrop cs h, trimRight, hdrop cs.reverse, List.reverse_reverse]
  intro c hc
  exact h c (List.mem_reverse.mp hc)

/-- A text with no blank at either end is its own trimmed text. -/
theorem trim_of_ends {c d : Char} {cs : List Char} (hc : isBlank c = false)
    (hd : isBlank d = false) : trim (c :: (cs ++ [d])) = c :: (cs ++ [d]) := by
  rw [trim, trimLeft, List.dropWhile_cons_of_neg (by rw [hc]; exact Bool.false_ne_true), trimRight,
    ← List.cons_append, List.reverse_append, List.reverse_singleton, List.singleton_append,
    List.dropWhile_cons_of_neg (by rw [hd]; exact Bool.false_ne_true), List.reverse_cons,
    List.reverse_reverse]

/-- Blanks at the end are dropped up to a character that is no blank. -/
theorem trimRight_append {d : Char} (a b : List Char) (hd : isBlank d = false) :
    trimRight (a ++ d :: b) = a ++ d :: trimRight b := by
  have hd' : ¬ isBlank d = true := by rw [hd]; exact Bool.false_ne_true
  unfold trimRight
  rw [List.reverse_append, List.reverse_cons, List.append_assoc, List.singleton_append,
    List.dropWhile_append]
  split
  · rename_i hempty
    rw [List.isEmpty_iff.mp hempty, List.dropWhile_cons_of_neg hd', List.reverse_cons,
      List.reverse_reverse, List.reverse_nil]
  · rw [List.reverse_append, List.reverse_cons, List.reverse_reverse, List.append_assoc,
      List.singleton_append]

/-- A letter of a column is no digit: both are told by their code points. -/
theorem isDigit_of_isLetter {c : Char} (h : Column.isLetter c = true) : isDigit c = false := by
  simp only [Column.isLetter, decide_eq_true_eq] at h
  have lo : 0x41 ≤ c.toNat := h.1
  have hi : c.toNat ≤ 0x5A := h.2
  simp [isDigit, CodeRanges.contains, CodeRanges.start?, CodeRanges.startOf?, digitRanges,
    show ¬ c.toNat < 0x30 by omega, show ¬ c.toNat ≤ 0x39 by omega, show c.toNat < 0x660 by omega]

theorem isLetter_of_isDigit {c : Char} (h : isDigit c = true) : Column.isLetter c = false := by
  by_contra hc
  rw [Bool.not_eq_false] at hc
  rw [isDigit_of_isLetter hc] at h
  exact absurd h Bool.false_ne_true

theorem isLetter_of_isAsciiDigit {c : Char} (h : isAsciiDigit c = true) :
    Column.isLetter c = false :=
  isLetter_of_isDigit (isDigit_of_isAsciiDigit c h)

/-- The digits of a number are those that a text may be read with. -/
theorem isAsciiDigit_of_mem_toDigits {n : Nat} : ∀ c ∈ Nat.toDigits 10 n,
    isAsciiDigit c = true := by
  intro c hc
  have h := Nat.isDigit_of_mem_toDigits (by decide) (by decide) hc
  rw [Char.isDigit, Bool.and_eq_true, decide_eq_true_eq, decide_eq_true_eq] at h
  rw [isAsciiDigit, decide_eq_true_eq]
  exact h

/-- A code point that a table finds lies in one of its ranges. -/
theorem exists_range_of_startOf? {table : CodeRanges} {n lo : Nat}
    (h : table.startOf? n = some lo) : ∃ range ∈ table, range.1 ≤ n ∧ n ≤ range.2 := by
  induction table with
  | nil => exact absurd h (by simp only [CodeRanges.startOf?, reduceCtorEq, not_false_eq_true])
  | cons range table ih =>
      rcases range with ⟨first, last⟩
      rw [CodeRanges.startOf?] at h
      by_cases hfirst : n < first
      · rw [if_pos hfirst] at h
        exact absurd h (by simp only [reduceCtorEq, not_false_eq_true])
      · rw [if_neg hfirst] at h
        by_cases hlast : n ≤ last
        · exact ⟨(first, last), List.mem_cons_self, by omega, hlast⟩
        · rw [if_neg hlast] at h
          rcases ih h with ⟨range, hmem, hrange⟩
          exact ⟨range, List.mem_cons_of_mem _ hmem, hrange⟩

/-- Two tables without common code points have no character in common. -/
theorem not_contains_of_apart {table table' : CodeRanges}
    (apart : ∀ r ∈ table, ∀ r' ∈ table', r.2 < r'.1 ∨ r'.2 < r.1) {c : Char}
    (h : table.contains c = true) : table'.contains c = false := by
  by_contra h'
  rw [Bool.not_eq_false] at h'
  rcases Option.isSome_iff_exists.mp h with ⟨lo, hlo⟩
  rcases Option.isSome_iff_exists.mp h' with ⟨lo', hlo'⟩
  rcases exists_range_of_startOf? hlo with ⟨r, hr, hin⟩
  rcases exists_range_of_startOf? hlo' with ⟨r', hr', hin'⟩
  have := apart r hr r' hr'
  omega

theorem isDigit_of_isBlank {c : Char} (h : isBlank c = true) : isDigit c = false :=
  not_contains_of_apart (by decide) h

theorem isBlank_of_isDigit {c : Char} (h : isDigit c = true) : isBlank c = false := by
  by_contra hc
  rw [Bool.not_eq_false] at hc
  rw [isDigit_of_isBlank hc] at h
  exact absurd h Bool.false_ne_true

theorem isLetter_of_isBlank {c : Char} (h : isBlank c = true) : Column.isLetter c = false := by
  by_contra hc
  rw [Bool.not_eq_false, Column.isLetter, decide_eq_true_eq] at hc
  have lo : 0x41 ≤ c.toNat := hc.1
  have hi : c.toNat ≤ 0x5A := hc.2
  -- The letters form a table of one range.
  have apart : CodeRanges.contains [(0x41, 0x5A)] c = false :=
    not_contains_of_apart (by decide) h
  simp [CodeRanges.contains, CodeRanges.start?, CodeRanges.startOf?,
    show ¬ c.toNat < 0x41 by omega, hi] at apart

theorem isBlank_of_isLetter {c : Char} (h : Column.isLetter c = true) : isBlank c = false := by
  by_contra hc
  rw [Bool.not_eq_false] at hc
  rw [isLetter_of_isBlank hc] at h
  exact absurd h Bool.false_ne_true

end Text

end Spreadsheet
