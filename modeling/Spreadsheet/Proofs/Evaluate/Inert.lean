import Spreadsheet.Proofs.Evaluate.Substitution

/-!
# Expressions without Cells and Calls

What an expression comes to that nothing is put into.

A name and a call begin with a letter, and what follows the letters decides which of
them it is: a digit or a parenthesis. So where no letter outside of the string
literals has a digit or a parenthesis behind it, nothing starts anywhere
(`Piece.LettersApart.start?_eq_none`), and the pieces of the text are its characters, those
in literals like all others. If such an expression is neither quoted nor a number,
arithmetic is what is left for it. Nothing is looked up on the way, so the value is the
same on every sheet: what is computed from the characters that can be part of
arithmetic.

## Main definitions

* `Value.ofArithmetic`: The value of an arithmetic expression, from its result.
* `Piece.LettersApart`: No letter has a parenthesis or a digit behind it.
* `Piece.IsInert`: A text in which no name and no call starts.

## Theorems

* `Value.ofArithmetic_ne_text`: Arithmetic has no text as its value.
* `Piece.LettersApart.start?_eq_none`: Nothing starts at the front of a text.
* `Piece.LettersApart.scan_eq`: The pieces are the characters.
* `Form.ofTrimmed_of_isInert`: Such a text is arithmetic, or one literal.
* `Scope.evaluate_of_isInert`: The value of such an expression.
-/

namespace Spreadsheet

open StringLiteral

/-- The value of an arithmetic expression: an error if there is no result, or none that
    is finite. -/
def Value.ofArithmetic : Except ArithmeticError Float → Value
  | .ok x => .ofFloat x
  | .error _ => .failure

/-- Arithmetic has no text as its value. -/
theorem Value.ofArithmetic_ne_text (result : Except ArithmeticError Float) (s : String) :
    ofArithmetic result ≠ .text s := by
  cases result with
  | error e => exact fun h => by cases h
  | ok x =>
      rw [ofArithmetic, ofFloat]
      split <;> exact fun h => by cases h

/-- What is left of a text is computed, if anything is. -/
theorem Arithmetic.valueOf_eq_ofArithmetic {text cs : List Char}
    (h : cs.filter survives ≠ []) :
    valueOf text cs = .ofArithmetic (evaluate (cs.filter survives)) := by
  unfold valueOf
  simp only [List.isEmpty_eq_false_iff.mpr h, Bool.false_eq_true, if_false]
  cases evaluate (cs.filter survives) with
  | ok x => rfl
  | error e => rfl

namespace Piece

/-- No letter outside of the literals of a text stands in front of a parenthesis or a
    digit. -/
def LettersApart (cs : List Char) : Prop :=
  (mark cs).IsChain fun p q =>
    p.2 = false → Column.isLetter p.1 = true → q.1 ≠ '(' ∧ Text.isDigit q.1 = false

instance (cs : List Char) : Decidable (LettersApart cs) :=
  inferInstanceAs (Decidable (List.IsChain _ (mark cs)))

/-- A text without backslashes whose quotes are all closed, with its letters apart from
    parentheses and digits. -/
structure IsInert (cs : List Char) : Prop where
  /-- Nothing is escaped. -/
  escape : '\\' ∉ cs
  /-- The quotes come in pairs. -/
  even : cs.count '"' % 2 = 0
  /-- No name of a cell and no call starts outside of the literals. -/
  apart : LettersApart cs

/-- Behind the letters at the front of a text stands neither a parenthesis nor a
    digit. -/
theorem LettersApart.stopsAt {letters rest : List Char} (h : LettersApart (letters ++ rest))
    (hletters : ∀ c ∈ letters, Column.isLetter c = true) (hne : letters ≠ []) :
    Text.StopsAt (fun c => c == '(' || Text.isDigit c) rest := by
  have hquote : '"' ∉ letters := fun hc => letter_ne_quote (hletters _ hc) rfl
  rw [LettersApart, mark_append _ (paired_of_not_mem hquote), mark_of_not_mem hquote] at h
  rcases List.eq_nil_or_concat letters with hnil | ⟨front, c, rfl⟩
  · exact absurd hnil hne
  · cases rest with
    | nil => exact Text.StopsAt.nil _
    | cons d rest =>
        -- The last letter and the character behind it stand next to each other.
        have hnext : ∃ ms b, mark (d :: rest) = (d, b) :: ms := by
          have hmark := map_fst_markFrom 0 (d :: rest)
          cases hm : markFrom 0 (d :: rest) with
          | nil =>
              rw [hm] at hmark
              cases hmark
          | cons m ms =>
              rw [hm] at hmark
              exact ⟨ms, m.2, by rw [mark, hm, ← (List.cons.inj hmark).1]⟩
        rcases hnext with ⟨ms, b, hms⟩
        rw [hms] at h
        have hlast := (List.isChain_append.mp h).2.2 (c, false) (by simp) (d, b) rfl rfl
          (hletters c (by simp))
        refine Text.StopsAt.cons rest ?_
        rw [hlast.2, Bool.or_false, beq_eq_false_iff_ne]
        exact hlast.1

/-- Neither a call nor a name stands at the front of a text. -/
theorem LettersApart.start?_eq_none {cs : List Char} (h : LettersApart cs) :
    Call.start? cs = none ∧ Mention.name? cs = none := by
  rcases Text.exists_stop Column.isLetter cs with ⟨letters, rest, rfl, hletters, hstop⟩
  rcases Text.span_of_stop hletters hstop with ⟨htake, hdrop⟩
  unfold Call.start? Mention.name?
  simp only [htake, hdrop]
  by_cases hne : letters = []
  · rw [hne]
    refine ⟨?_, rfl⟩
    split <;> rfl
  · -- What follows the letters is neither a parenthesis nor a digit.
    have hrest := h.stopsAt hletters hne
    cases rest with
    | nil => exact ⟨rfl, by simp⟩
    | cons d rest =>
        rcases Bool.or_eq_false_iff.mp (hrest d rfl) with ⟨hparenthesis, hdigit⟩
        refine ⟨?_, by simp [hdigit]⟩
        split
        · rename_i heq
          rw [(List.cons.inj heq).1] at hparenthesis
          cases hparenthesis
        · rfl

/-- The pieces of such a text are its characters. -/
theorem LettersApart.scan_eq {cs : List Char} (h : LettersApart cs) (hpaired : Paired cs) :
    scan cs = cs.map plain := by
  induction hpaired with
  | nil => rfl
  | @plain c rest quote _ ih =>
      rcases h.start?_eq_none with ⟨hcall, hname⟩
      have hstart : start? (c :: rest) = none := by
        rw [start?, hcall, hname]
        rfl
      rw [LettersApart, mark_plain rest quote] at h
      rw [scan_plain quote (by rw [hstart, ite_self]), ih (List.isChain_cons.mp h).2]
      rfl
  | @literal body rest quote escape _ ih =>
      -- What stands in the literal is not looked at.
      rw [LettersApart, mark_literal rest quote escape] at h
      rw [scan_literal rest quote escape, ih h.right_of_append, ← List.map_append]
      simp only [List.cons_append, List.append_assoc, List.nil_append]

namespace IsInert

variable {cs : List Char}

theorem paired (h : IsInert cs) : Paired cs := paired_of_even h.escape h.even

/-- A text without quotes, backslashes and letters. -/
theorem of_forall (h : ∀ c ∈ cs, c ≠ '"' ∧ c ≠ '\\' ∧ Column.isLetter c = false) : IsInert cs := by
  have hquote : '"' ∉ cs := fun hc => (h _ hc).1 rfl
  refine ⟨fun hc => (h _ hc).2.1 rfl, by rw [List.count_eq_zero.mpr hquote], ?_⟩
  rw [LettersApart, mark_of_not_mem hquote]
  refine List.Pairwise.isChain (List.pairwise_map.mpr ?_)
  refine List.pairwise_of_forall_mem_list fun c hc d _ _ hletter => ?_
  rw [(h c hc).2.2] at hletter
  cases hletter

/-- A part with nothing but blanks around it. -/
theorem trim (h : IsInert cs) : IsInert (Text.trim cs) := by
  rcases Text.exists_blanks cs with ⟨front, back, hcs, hfront, hback⟩
  have hblank : ∀ {blanks : List Char}, (∀ c ∈ blanks, Text.isBlank c = true) → '"' ∉ blanks :=
    fun hall hc => absurd (hall _ hc) (by decide)
  have hescape : '\\' ∉ Text.trim cs := fun hc => h.escape (Text.mem_of_mem_trim hc)
  have heven : (Text.trim cs).count '"' % 2 = 0 := by
    have hcount := h.even
    rwa [hcs, List.count_append, List.count_append, List.count_eq_zero.mpr (hblank hfront),
      List.count_eq_zero.mpr (hblank hback), Nat.zero_add, Nat.add_zero] at hcount
  have hapart := h.apart
  rw [LettersApart, hcs, mark_append _ (paired_of_not_mem (hblank hfront)),
    mark_append _ (paired_of_even hescape heven)] at hapart
  exact ⟨hescape, heven, hapart.right_of_append.left_of_append⟩

theorem scan_eq (h : IsInert cs) : scan cs = cs.map plain := h.apart.scan_eq h.paired

end IsInert

end Piece

/-- What is neither quoted nor a number is arithmetic on its characters. -/
theorem Form.ofTrimmed_of_isInert {cs : List Char} (h : Piece.IsInert cs) (hne : cs ≠ [])
    (hquoted : isQuoted cs = false) (hvalue : Literal.value? cs = none) :
    ofTrimmed cs = .arithmetic cs (cs.map .plain) := by
  rcases h.apart.start?_eq_none with ⟨hcall, hname⟩
  have hwhole : Call.whole? cs = none := by rw [Call.whole?, hcall]
  have href : reference? cs = none := by rw [reference?, Mention.atStart?_of_none hname]
  rw [ofTrimmed, List.isEmpty_eq_false_iff.mpr hne, hquoted, hvalue, href, operation, hwhole,
    h.scan_eq]
  rfl

/-- An expression without cells and calls that is neither quoted nor a number has the
    value of what arithmetic keeps of it, if it keeps anything. -/
theorem Scope.evaluate_of_isInert {cs : List Char} (h : Piece.IsInert cs)
    (hquoted : Form.isQuoted (Text.trim cs) = false)
    (hvalue : Literal.value? (Text.trim cs) = none) (hne : cs.filter Arithmetic.survives ≠ [])
    (scope : Scope) :
    scope.evaluate (String.ofList ('=' :: cs))
      = .ofArithmetic (Arithmetic.evaluate (cs.filter Arithmetic.survives)) := by
  rw [← Arithmetic.filter_trim] at hne ⊢
  have htrim : Text.trim cs ≠ [] := fun hnil => hne (by rw [hnil]; rfl)
  rw [evaluate_formula,
    expression_of_map_plain (Form.ofTrimmed_of_isInert h.trim htrim hquoted hvalue),
    Arithmetic.valueOf_eq_ofArithmetic hne]

end Spreadsheet
