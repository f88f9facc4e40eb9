import Spreadsheet.Proofs.Arithmetic.Grammar
import Spreadsheet.Proofs.Number.Numeral

/-!
# Rows of Words Written Out

The tokens of a text in which the words of a row stand next to each other.

A symbol is one character and one token wherever it stands. The text of an operand
is cut into the tokens meant for it if nothing follows that would carry a number
on, and in a row that keeps its operands apart only symbols follow. So the tokens
of the whole text are those of the words, one after the other.

## Main definitions

* `IsWritten`: The text of an operand, and what it is read as.
* `Word.written`: The text of a word.

## Theorems

* `isWritten_numeral`, `IsWritten.minus`: Numerals are operands, and so are
  numerals with a sign.
* `Separated.ofChars_eq`: The tokens of a row that is written out.
* `Derives.evaluate_eq`: The value of an expression that is written out.
-/

namespace Spreadsheet

namespace Arithmetic

/-- A symbol is a token of its own. -/
theorem ofChars_symbol (s : Symbol) (rest : List Char) :
    Token.ofChars (s.char :: rest) = (Token.ofChars rest).map (s.token :: ·) := by
  have hblank : Text.isBlank s.char = false := by cases s <;> decide
  have hdigit : ¬ Text.isDigit s.char = true := by cases s <;> decide
  have hnumber : Token.number? (s.char :: rest) = none := by
    unfold Token.number?
    simp only [List.takeWhile_cons_of_neg hdigit, List.dropWhile_cons_of_neg hdigit]
    split
    · rename_i heq
      have hpoint : s.char = '.' := (List.cons.inj heq).1
      cases s <;> exact absurd hpoint (by decide)
    · rfl
  have hsymbol : Token.ofSymbol? s.char = some s.token := by cases s <;> rfl
  rw [Token.ofChars, Token.ofCharsFrom, hblank, hnumber]
  simp only [Bool.false_eq_true, if_false, hsymbol]
  rfl

/-- No symbol carries a number on. -/
theorem continues_symbol (s : Symbol) : Numeral.continues s.char = false := by
  cases s <;> decide

/-- The text is cut into tokens that are read as one factor, unless a number goes on
    behind it. -/
def IsWritten (levels : Nat) (cs : List Char) (ts : List Token) (x : Float) : Prop :=
  IsFactor levels ts x ∧ ∀ rest, Text.StopsAt Numeral.continues rest →
    Token.ofChars (cs ++ rest) = (Token.ofChars rest).map (ts ++ ·)

theorem isWritten_numeral (n : Numeral) : IsWritten 0 n.chars [.number n.value] n.value :=
  ⟨isFactor_number n.value, fun _ hrest => n.ofChars_append hrest⟩

/-- A minus sign in front negates, and takes one more level. -/
theorem IsWritten.minus {levels : Nat} {cs : List Char} {ts : List Token} {x : Float}
    (h : IsWritten levels cs ts x) : IsWritten (levels + 1) ('-' :: cs) (.minus :: ts) (-x) := by
  refine ⟨h.1.minus, fun rest hrest => ?_⟩
  rw [List.cons_append, show '-' = Symbol.minus.char from rfl, ofChars_symbol, h.2 rest hrest]
  cases Token.ofChars rest with
  | error e => rfl
  | ok us => rfl

theorem IsWritten.mono {levels levels' : Nat} {cs : List Char} {ts : List Token} {x : Float}
    (h : IsWritten levels cs ts x) (hle : levels ≤ levels') : IsWritten levels' cs ts x :=
  ⟨fun depth rest hdepth => h.1 depth rest (Nat.lt_of_le_of_lt hle hdepth), h.2⟩

/-- The text of a word, given those of the operands. -/
def Word.written {α : Type} (write : α → List Char) : Word α → List Char
  | symbol s => [s.char]
  | operand a => write a

section Row

variable {α : Type} {write : α → List Char} {spell : α → List Token} {number : α → Float}
  {levels : α → Nat} {ws : List (Word α)}

/-- A row that does not begin with an operand does not carry a number on. -/
theorem stopsAt_written (h : ∀ w ∈ ws.head?, w.operand? = none) :
    Text.StopsAt Numeral.continues (ws.flatMap (Word.written write)) := by
  cases ws with
  | nil => exact Text.StopsAt.nil _
  | cons w ws =>
      cases w with
      | symbol s => exact Text.StopsAt.cons _ (continues_symbol s)
      | operand a => cases h _ rfl

/-- The tokens of a row that is written out are those of its words. -/
theorem Separated.ofChars_eq (h : Separated ws)
    (hwrite : ∀ a ∈ ws.filterMap Word.operand?,
      IsWritten (levels a) (write a) (spell a) (number a)) :
    Token.ofChars (ws.flatMap (Word.written write)) = .ok (ws.flatMap (Word.tokens spell)) := by
  induction ws with
  | nil => rfl
  | cons w ws ih =>
      rcases List.isChain_cons.mp h with ⟨hnext, htail⟩
      rw [List.flatMap_cons, List.flatMap_cons]
      cases w with
      | symbol s =>
          show Token.ofChars (s.char :: ws.flatMap (Word.written write)) = _
          rw [ofChars_symbol, ih htail hwrite]
          rfl
      | operand a =>
          have hstops := @stopsAt_written α write ws fun w hw => hnext w hw rfl
          have hrest := ih htail fun b hb => hwrite b (List.mem_cons_of_mem a hb)
          show Token.ofChars (write a ++ ws.flatMap (Word.written write)) = _
          rw [(hwrite a List.mem_cons_self).2 _ hstops, hrest]
          rfl

/-- The value of an expression that is written out. -/
theorem Derives.evaluate_eq {e : Expression α} (h : Derives .sum ws e)
    (hwrite : ∀ a ∈ e.operands, ∃ ts, IsWritten (levels a) (write a) ts (number a))
    (hnesting : e.nesting levels < depthLimit) :
    ws.flatMap (Word.written write) ≠ [] ∧
      evaluate (ws.flatMap (Word.written write)) = e.value number := by
  choose! spell hspell using hwrite
  have htokens := @Separated.ofChars_eq α write spell number levels ws h.separated
    (by rw [h.filterMap_operand?]; exact hspell)
  refine ⟨fun hnil => ?_, ?_⟩
  · rw [hnil] at htokens
    refine h.tokens_ne_nil (fun a ha => (hspell a ha).1.ne_nil) ?_
    exact (Except.ok.inj htokens).symm
  · rw [evaluate, htokens]
    exact h.evaluateTokens_eq (fun a ha => (hspell a ha).1) hnesting

end Row

end Arithmetic

end Spreadsheet
