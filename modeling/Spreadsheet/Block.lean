import Spreadsheet.Address
import Spreadsheet.Text.Blank

/-!
# Blocks

Rectangles of cells.

A block is named by two opposite corners, in any order: `B3:A1` is the block
from `A1` to `B3`. It keeps its sides apart and in order, so containing an
address is two comparisons in each direction, whatever its size. Listing a block
goes row by row.

## Main definitions

* `Block`: A rectangle of addresses, with its sides in order.
* `Block.spanning`: The block with two given corners.
* `Block.addresses`: The addresses of a block, row by row.
* `Block.ofText`: The block that a text names.
* `Block.ids`: The names of the cells of a block, row by row.
* `RangeReference`: A block together with the text that names it.
-/

namespace Spreadsheet

/-- A rectangle of addresses. All four sides belong to it. -/
structure Block where
  top : Int
  left : Int
  bottom : Int
  right : Int
  top_le_bottom : top ≤ bottom
  left_le_right : left ≤ right
deriving DecidableEq

namespace Block

/-- The block that has two addresses as opposite corners. -/
def spanning (a b : Address) : Block where
  top := min a.row b.row
  left := min a.col b.col
  bottom := max a.row b.row
  right := max a.col b.col
  top_le_bottom := by omega
  left_le_right := by omega

/-- The number of rows. -/
def rows (block : Block) : Nat := (block.bottom - block.top + 1).toNat

/-- The number of columns. -/
def cols (block : Block) : Nat := (block.right - block.left + 1).toNat

instance : Membership Address Block where
  mem block a :=
    (block.top ≤ a.row ∧ a.row ≤ block.bottom) ∧ (block.left ≤ a.col ∧ a.col ≤ block.right)

instance (a : Address) (block : Block) : Decidable (a ∈ block) :=
  inferInstanceAs (Decidable (_ ∧ _))

/-- The addresses of a block, row by row and each row from left to right. -/
def addresses (block : Block) : List Address :=
  (List.range block.rows).flatMap fun (i : Nat) =>
    (List.range block.cols).map fun (j : Nat) => ⟨block.top + (i : Int), block.left + (j : Int)⟩

/-- The block that characters name: the names of two cells with a colon between
    them. Blanks around the names are left out. -/
def ofChars (cs : List Char) : Except AddressError Block :=
  match cs.dropWhile (· != ':') with
  | [] => .error (.badRange (String.ofList cs))
  | _ :: second =>
    if second.contains ':' then .error (.badRange (String.ofList cs))
    else do
      let a ← Address.ofId (String.ofList (Text.trim (cs.takeWhile (· != ':'))))
      let b ← Address.ofId (String.ofList (Text.trim second))
      pure (spanning a b)

/-- The block that a text names. -/
def ofText (text : String) : Except AddressError Block := ofChars text.toList

/-- The names of the cells of a block, row by row. -/
def ids (block : Block) : List String :=
  block.addresses.map fun a => Address.cellId a.row.toNat a.col.toNat

end Block

/-- A block together with the text that names it. Where the cells are not called
    for, the text stands for itself. -/
structure RangeReference where
  /-- The text, such as `A1:B3`. -/
  text : String
  block : Block
deriving DecidableEq

end Spreadsheet
