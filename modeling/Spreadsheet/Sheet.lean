import Spreadsheet.Cell
import Spreadsheet.OrderedMap

/-!
# Sheets

A grid of cells.

A sheet keeps the cells that hold something, under their names; a name that is
absent is an empty cell. It also keeps the widths and heights that differ from
the default, and the size of the grid, which bounds nothing but the movements of
a user: any cell that has a name can be filled. Sheets are values, and an
operation that changes one gives a new one.

The names in a sheet need not be canonical, or even names of cells, since a
document or a caller may have put anything there. Formulas only ever reach the
cells whose names are canonical.

## Main definitions

* `Cells`: The cells of a sheet, in the order in which they were entered.
* `Cells.putText`: A text typed into a cell.
* `Cells.located`: The cells whose names denote an address.
* `Cells.valuesIn`: The values in a block, row by row.
* `Sheet`: A grid of cells.
-/

namespace Spreadsheet

/-- The cells of a sheet, in the order in which they were entered. -/
abbrev Cells := OrderedMap String Cell

namespace Cells

/-- The cells with a text typed into one of them. It keeps its style; a cell that
    is left empty is removed. -/
def putText (cells : Cells) (id : String) (text : String) : Cells :=
  let cell := Cell.ofText text ((cells.get? id).bind Cell.style)
  if cell.isEmpty then cells.erase id else cells.insert id cell

/-- The names that denote an address, with their addresses. -/
def located (cells : Cells) : List (String × Address) :=
  cells.keys.filterMap fun id => (Address.ofId? id).map fun a => (id, a)

/-- The canonical names, with their addresses. These are the cells that formulas
    reach. -/
def reachable (cells : Cells) : List (String × Address) :=
  cells.located.filter fun (id, _) => Address.IsCanonical id

/-- The value that a formula sees in a cell: an absent cell shows nothing. -/
def valueAt (cells : Cells) (id : String) : Value :=
  ((cells.get? id).map Cell.currentValue).getD (.text "")

/-- The values present in a block, found by looking up each of its names. -/
def valuesByName (cells : Cells) (block : Block) : List Value :=
  block.ids.filterMap fun id => (cells.get? id).map Cell.currentValue

/-- Whether one address comes before another when a block is listed, or is the
    same. -/
def rowMajor (a b : Address) : Bool := a.row < b.row ∨ (a.row = b.row ∧ a.col ≤ b.col)

/-- The values present in a block, found by going through the cells. -/
def valuesByCell (cells : Cells) (block : Block) : List Value :=
  let inside := cells.reachable.filter fun (_, a) => a ∈ block
  (inside.mergeSort fun p q => rowMajor p.2 q.2).map fun (id, _) => cells.valueAt id

/-- The values present in a block, row by row. Absent cells contribute nothing.
    The way that looks at fewer cells is taken. -/
def valuesIn (cells : Cells) (block : Block) : List Value :=
  if block.rows * block.cols ≤ cells.reachable.length then cells.valuesByName block
  else cells.valuesByCell block

end Cells

/-- A grid of cells. -/
structure Sheet where
  /-- The cells that hold something. -/
  cells : Cells := ∅
  columnWidths : OrderedMap Int Int := ∅
  rowHeights : OrderedMap Int Int := ∅
  /-- The number of rows that are shown. -/
  rowCount : Int := 100
  /-- The number of columns that are shown. -/
  columnCount : Int := 26

namespace Sheet

instance : Inhabited Sheet := ⟨{}⟩

/-- The width of a column that was never resized. -/
def defaultColumnWidth : Int := 100

/-- The height of a row that was never resized. -/
def defaultRowHeight : Int := 28

/-- The sheet without cells. -/
def empty : Sheet := {}

/-- The cell at a position. -/
def cellAt (sheet : Sheet) (a : Address) : Except AddressError (Option Cell) :=
  a.toId.map sheet.cells.get?

/-- The width of a column. -/
def columnWidth (sheet : Sheet) (col : Int) : Int :=
  (sheet.columnWidths.get? col).getD defaultColumnWidth

/-- The height of a row. -/
def rowHeight (sheet : Sheet) (row : Int) : Int :=
  (sheet.rowHeights.get? row).getD defaultRowHeight

end Sheet

end Spreadsheet
