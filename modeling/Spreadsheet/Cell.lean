import Spreadsheet.Style
import Spreadsheet.Value

/-!
# Cells

What was entered in a cell, and what it came to.

A cell holds a literal text or a formula, possibly a style, and the value that
the last recomputation found for it. A formula is a text that starts with an
equals sign; while a cell has one, its literal text counts for nothing. A cell
with no text, no formula and no attribute set is empty, and a sheet need not
keep it.

## Main definitions

* `Cell`: The contents of a cell.
* `Cell.ofText`: The cell for a text that was typed in.
* `Cell.isFormula`, `Cell.isEmpty`: Kinds of cells.
* `Cell.currentValue`: The value that formulas see.
-/

namespace Spreadsheet

/-- The contents of a cell. -/
structure Cell where
  /-- The literal text. -/
  value : String := ""
  /-- The formula. An empty text counts as none. -/
  formula : Option String := none
  /-- The value found by the last recomputation. -/
  computed : Option Value := none
  style : Option Style := none

namespace Cell

instance : Inhabited Cell := ⟨{}⟩

/-- The formula, if there is one that is not empty. -/
def formula? (c : Cell) : Option String := c.formula.filter fun f => !f.isEmpty

/-- Whether the cell has a formula. -/
def isFormula (c : Cell) : Bool := c.formula?.isSome

/-- Whether some attribute is set. -/
def hasStyle (c : Cell) : Bool := (c.style.map fun s => !s.isEmpty).getD false

/-- Whether a sheet may leave the cell out. -/
def isEmpty (c : Cell) : Bool := c.value.isEmpty && !c.isFormula && !c.hasStyle

/-- The value that formulas see: the computed one, or the literal where none was
    computed. A formula that was not computed shows nothing. -/
def currentValue (c : Cell) : Value :=
  match c.computed with
  | some v => v
  | none => if c.isFormula then .text "" else .ofLiteral c.value

/-- The cell for a text that was typed in: a formula if it starts with an equals
    sign, else a literal. -/
def ofText (s : String) (style : Option Style) : Cell :=
  if s.toList.head? = some '=' then { formula := some s, style }
  else { value := s, style }

end Cell

end Spreadsheet
