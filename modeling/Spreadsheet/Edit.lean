import Spreadsheet.Recompute

/-!
# Edits

What a user does to a sheet.

A user types a text into a cell, changes how a cell looks, or changes the width
of a column. Each edit gives a new sheet. After the first two every value is
found anew, with the builtin functions. An edit that cannot be done changes
nothing and says why.

## Main definitions

* `EditError`: Why an edit was refused.
* `Sheet.commitEdit`: A text typed into a cell.
* `Sheet.applyStyle`: Attributes of a cell changed.
* `Sheet.resizeColumn`: The width of a column changed.
-/

namespace Spreadsheet

/-- Why an edit was refused. -/
inductive EditError where
  | address (e : AddressError)
  | style (e : StyleError)
  /-- A width that is not positive. -/
  | badWidth (width : Int)

namespace EditError

/-- The text shown for an error. -/
def message : EditError → String
  | address e => e.message
  | style e => e.message
  | badWidth width => "Column width must be positive: " ++ toString width

end EditError

namespace Cells

/-- The cells with attributes of one of them changed. A cell that is left empty is
    removed. -/
def restyle (cells : Cells) (id : String) (changes : List (String × Json)) :
    Except StyleError Cells := do
  let cell := (cells.get? id).getD {}
  let style ← (cell.style.getD .empty).merge changes
  let cell := { cell with style := some style }
  pure (if cell.isEmpty then cells.erase id else cells.insert id cell)

end Cells

namespace Sheet

/-- The name of an address, for an edit. -/
def editId (a : Address) : Except EditError String := a.toId.mapError .address

/-- The sheet after a text is typed into a cell. -/
def commitEdit (sheet : Sheet) (a : Address) (text : String) : Except EditError Sheet := do
  let id ← editId a
  pure ({ sheet with cells := sheet.cells.putText id text }.recompute .builtins)

/-- The sheet after attributes of a cell are changed by name. The value null unsets
    an attribute. -/
def applyStyle (sheet : Sheet) (a : Address) (changes : List (String × Json)) :
    Except EditError Sheet := do
  let id ← editId a
  let cells ← (sheet.cells.restyle id changes).mapError .style
  pure ({ sheet with cells }.recompute .builtins)

/-- The sheet after the width of a column is changed. -/
def resizeColumn (sheet : Sheet) (col width : Int) : Except EditError Sheet :=
  if width ≤ 0 then .error (.badWidth width)
  else .ok { sheet with columnWidths := sheet.columnWidths.insert col width }

end Sheet

end Spreadsheet
