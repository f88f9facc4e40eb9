import Spreadsheet.Proofs.Evaluate.Inert

/-!
# String Literals in Arithmetic

Which expressions with quotes in them are taken for a string literal.

The characters of a literal are left out of arithmetic like all others that cannot be
part of it, and those that can are kept: a literal is one among the operands, wherever
it stands. An expression that is nothing but a literal is a text.

Evaluation does not tell the two apart in this way. It takes an expression for a
literal if the first and the last character are quotes, and these need not belong to
one literal. So an expression in which a literal comes first and another one comes last
is a text, whatever stands between them.

## Main definitions

* `IsReadAsArithmetic`: An expression has the value of what arithmetic keeps of it.

## Theorems

* `Scope.evaluate_of_isQuoted`: What is between quotes is a text.
* `isReadAsArithmetic_iff`: Only an expression between quotes is not arithmetic.
* `not_isReadAsArithmetic_sum`: But a sum of two literals is such an expression.
-/

namespace Spreadsheet

/-- An expression between quotes has what is between them as its value. -/
theorem Scope.evaluate_of_isQuoted {cs : List Char} (h : Form.isQuoted (Text.trim cs) = true)
    (scope : Scope) :
    scope.evaluate (String.ofList ('=' :: cs))
      = .text (String.ofList ((Text.trim cs).drop 1).dropLast) := by
  have hvalue : scope.value? depthLimit cs
      = some (.text (String.ofList ((Text.trim cs).drop 1).dropLast)) :=
    (Yields.text (by rw [Form.ofTrimmed_of_isQuoted h]; rfl)).value?_eq
  rw [evaluate_formula, expression_of_value? hvalue fun r hr => by cases hr]

/-- An expression has the value of what arithmetic keeps of it, and it is only taken for
    a string literal if it is one. -/
structure IsReadAsArithmetic (cs : List Char) : Prop where
  /-- The value is computed from the characters that can be part of arithmetic. -/
  evaluate_eq : ∀ scope : Scope, scope.evaluate (String.ofList ('=' :: cs))
    = .ofArithmetic (Arithmetic.evaluate (cs.filter Arithmetic.survives))
  /-- No quote stands between the quotes of a literal. -/
  of_isQuoted : Form.isQuoted (Text.trim cs) = true →
    ∃ body, '"' ∉ body ∧ Text.trim cs = '"' :: (body ++ ['"'])

/-- An expression without cells and calls, with an operator outside of its literals that
    is not the sign of a number, is read as arithmetic unless its first and its last
    character are quotes. -/
theorem isReadAsArithmetic_iff {cs : List Char} (hinert : Piece.IsInert cs) {c : Char}
    (hoperator : c ∈ "+-*/".toList) (houtside : (c, false) ∈ StringLiteral.mark cs)
    (hvalue : Literal.value? (Text.trim cs) = none) :
    IsReadAsArithmetic cs ↔ Form.isQuoted (Text.trim cs) = false := by
  constructor
  · intro h
    by_contra hquoted
    rw [Bool.not_eq_false] at hquoted
    have hvalue := h.evaluate_eq ⟨∅, .builtins⟩
    rw [Scope.evaluate_of_isQuoted hquoted] at hvalue
    exact Value.ofArithmetic_ne_text _ _ hvalue.symm
  · intro hquoted
    have hmem : c ∈ cs := by
      rw [← StringLiteral.map_fst_markFrom 0 cs]
      exact List.mem_map_of_mem houtside
    -- The operator is kept, so that something is left for arithmetic.
    have hsurvives : Arithmetic.survives c = true :=
      List.all_eq_true.mp (show "+-*/".toList.all Arithmetic.survives = true by decide) c hoperator
    have hne : cs.filter Arithmetic.survives ≠ [] :=
      List.ne_nil_of_mem (List.mem_filter.mpr ⟨hmem, hsurvives⟩)
    refine ⟨Scope.evaluate_of_isInert hinert hquoted hvalue hne, fun h => ?_⟩
    rw [hquoted] at h
    cases h

/-- Here the digits in the literals are kept, and the names in them are not looked up. -/
theorem isReadAsArithmetic_literals :
    let cs := "\"A1\" + 2*\"SUM(1)\"/1".toList
    Piece.IsInert cs ∧ ('+', false) ∈ StringLiteral.mark cs ∧
      Literal.value? (Text.trim cs) = none ∧ Form.isQuoted (Text.trim cs) = false ∧
      IsReadAsArithmetic cs ∧
      Value.ofArithmetic (Arithmetic.evaluate (cs.filter Arithmetic.survives))
        = .number (.whole 3) := by
  intro cs
  have hinert : Piece.IsInert cs := ⟨by decide, by decide, by decide⟩
  have houtside : ('+', false) ∈ StringLiteral.mark cs := by decide
  have hvalue : Literal.value? (Text.trim cs) = none := by decide
  have hquoted : Form.isQuoted (Text.trim cs) = false := by decide
  exact ⟨hinert, houtside, hvalue, hquoted,
    (isReadAsArithmetic_iff hinert (by decide) houtside hvalue).mpr hquoted, by decide +kernel⟩

/-- A sum of two literals is taken for one. -/
theorem not_isReadAsArithmetic_sum :
    ¬ ∀ cs : List Char, Piece.IsInert cs →
      (∃ c ∈ "+-*/".toList, (c, false) ∈ StringLiteral.mark cs) →
      Literal.value? (Text.trim cs) = none → IsReadAsArithmetic cs := by
  intro hread
  have hsum := hread "\"1\"+\"2\"".toList ⟨by decide, by decide, by decide⟩
    ⟨'+', by decide, by decide⟩ (by decide)
  have hvalue := hsum.evaluate_eq ⟨∅, .builtins⟩
  -- What is computed is three, and what is shown is the text between the outer quotes.
  exact absurd hvalue (by decide +kernel)

end Spreadsheet
