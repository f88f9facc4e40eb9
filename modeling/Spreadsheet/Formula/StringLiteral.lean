/-!
# String Literals

The quoted texts inside a formula.

A literal runs from a double quote to the next one. A backslash takes the
character after it along, so an escaped quote does not end the literal; a line
break cannot be escaped. A quote that opens no literal, because none closes it,
is an ordinary character, and the search for literals goes on behind it.

What stands in a literal is text: the names of cells inside it are not
references. Each character of a formula is therefore marked with whether it is
part of a literal, quotes included.

## Main definitions

* `StringLiteral.restLength?`: How far the literal reaches after its opening
  quote.
* `StringLiteral.mark`: The characters of a formula, with their marks.
* `StringLiteral.strip`: A formula without its literals.

## Theorems

* `map_fst_markFrom`: Marking changes no character.
-/

namespace Spreadsheet

namespace StringLiteral

/-- The number of characters of a literal after its opening quote, the closing one
    included, if it is closed. -/
def restLength? : List Char → Option Nat
  | [] => none
  | '"' :: _ => some 1
  | ['\\'] => none
  | '\\' :: c :: rest => if c = '\n' then none else (restLength? rest).map (· + 2)
  | _ :: rest => (restLength? rest).map (· + 1)

/-- The characters of a text with their marks, the first `inside` of which belong
    to a literal that has begun. -/
def markFrom : Nat → List Char → List (Char × Bool)
  | _, [] => []
  | inside + 1, c :: rest => (c, true) :: markFrom inside rest
  | 0, c :: rest =>
    match if c = '"' then restLength? rest else none with
    | some length => (c, true) :: markFrom length rest
    -- A quote that nothing closes is no literal, but one may still start after it.
    | none => (c, false) :: markFrom 0 rest

/-- The characters of a formula, each with whether it is part of a literal. -/
def mark (cs : List Char) : List (Char × Bool) := markFrom 0 cs

/-- The characters of a formula that are part of no literal. -/
def strip (cs : List Char) : List Char :=
  (mark cs).filterMap fun (c, literal) => if literal then none else some c

/-- Marking changes no character. -/
theorem map_fst_markFrom (inside : Nat) (cs : List Char) :
    (markFrom inside cs).map Prod.fst = cs := by
  induction cs generalizing inside with
  | nil => cases inside <;> rfl
  | cons c rest ih =>
    cases inside with
    | zero =>
      simp only [markFrom]
      split <;> simp [ih]
    | succ n => simp [markFrom, ih]

end StringLiteral

end Spreadsheet
