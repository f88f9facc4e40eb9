import Spreadsheet.Text.Digit
import Spreadsheet.Text.Quote

/-!
# Addresses

Positions in a grid, and the names of cells.

A cell is named by the letters of its column and the number of its row, as in
`B7`. Columns count `A` to `Z`, then `AA` to `ZZ`, then three letters, so the
letters are a number in base twenty-six whose digits run from one to twenty-six
and which has no zero: every column has exactly one label. Rows are numbered from
one, while positions count from zero in both directions. The number of a row may have
any number of digits.

A name is read more freely than it is written. Leading zeros of the row and one
line break at the end are accepted, so several names may denote one cell; the
name written for a position is the canonical one. Positions off the grid, with a
negative row or column, can be computed with but have no name.

## Main definitions

* `Address`: A position, counted from zero.
* `AddressError`: Why a name or a position was refused.
* `Column.label`, `Column.index?`: Column numbers and their letters.
* `Address.cellId`: The name of a position on the grid.
* `Address.toId`, `Address.ofId?`: Names of addresses, written and read.
* `Address.IsCanonical`: The names that are written.
-/

namespace Spreadsheet

/-- Why a name or a position was refused. -/
inductive AddressError where
  | negativeRow (row : Int)
  | negativeColumn (col : Int)
  | badLabel (label : String)
  | badReference (text : String)
  /-- Not two names with a colon between them. -/
  | badRange (text : String)
deriving DecidableEq, Repr

namespace AddressError

/-- The text shown for an error. -/
def message : AddressError → String
  | negativeRow row => "Row index must be non-negative: " ++ toString row
  | negativeColumn col => "Column index must be non-negative: " ++ toString col
  | badLabel label => "Invalid column label: " ++ Text.quote label
  | badReference text => "Invalid cell reference: " ++ Text.quote text
  | badRange text => "Invalid range: " ++ Text.quote text

end AddressError

namespace Column

/-- Whether a character may stand in a column label: `A` to `Z`. -/
def isLetter (c : Char) : Bool := 'A' ≤ c ∧ c ≤ 'Z'

/-- The letter for a number below twenty-six. -/
def letter (n : Nat) : Char := Char.ofNat ('A'.toNat + n)

/-- The letters of a column, counted from zero: after `Z` comes `AA`. -/
def letters (col : Nat) : List Char :=
  if col < 26 then [letter col] else letters (col / 26 - 1) ++ [letter (col % 26)]
termination_by col
decreasing_by omega

/-- The number that letters stand for, counted from one; none stand for zero. -/
def ordinal (cs : List Char) : Nat :=
  cs.foldl (fun n c => 26 * n + (c.toNat - 'A'.toNat + 1)) 0

/-- The label of a column. -/
def label (col : Int) : Except AddressError String :=
  if col < 0 then .error (.negativeColumn col) else .ok (String.ofList (letters col.toNat))

/-- The column that a label names, if it is a label: letters `A` to `Z`, at least
    one. -/
def index? (label : String) : Option Nat :=
  let cs := label.toList
  if cs ≠ [] ∧ cs.all isLetter then some (ordinal cs - 1) else none

/-- The column that a label names. -/
def index (label : String) : Except AddressError Nat :=
  match index? label with
  | some col => .ok col
  | none => .error (.badLabel label)

end Column

/-- A position in a grid, counted from zero. -/
structure Address where
  row : Int
  col : Int
deriving DecidableEq, Repr

namespace Address

/-- The name of the cell in a row and a column, both counted from zero. -/
def cellId (row col : Nat) : String :=
  String.ofList (Column.letters col ++ Nat.toDigits 10 (row + 1))

/-- The name of an address. The row is looked at before the column. -/
def toId (a : Address) : Except AddressError String :=
  if a.row < 0 then .error (.negativeRow a.row)
  else if a.col < 0 then .error (.negativeColumn a.col)
  else .ok (cellId a.row.toNat a.col.toNat)

/-- The number spelled by ASCII digits. -/
def rowNumber (digits : List Char) : Nat :=
  digits.foldl (fun n c => 10 * n + (c.toNat - '0'.toNat)) 0

/-- The address that the characters of a name denote: letters, digits for a row
    number of at least one, and possibly a line break. -/
def ofChars? (cs : List Char) : Option Address :=
  let letters := cs.takeWhile Column.isLetter
  let rest := cs.dropWhile Column.isLetter
  let digits := rest.takeWhile Text.isAsciiDigit
  let tail := rest.dropWhile Text.isAsciiDigit
  let row := rowNumber digits
  if letters ≠ [] ∧ digits ≠ [] ∧ (tail = [] ∨ tail = ['\n']) ∧ row ≠ 0 then
    some ⟨(row - 1 : Nat), (Column.ordinal letters - 1 : Nat)⟩
  else none

/-- The address that a name denotes, if it is the name of a cell. -/
def ofId? (id : String) : Option Address := ofChars? id.toList

/-- The address that a name denotes. -/
def ofId (id : String) : Except AddressError Address :=
  match ofId? id with
  | some a => .ok a
  | none => .error (.badReference id)

/-- The name written for the address that a name denotes. -/
def canonicalId? (id : String) : Option String :=
  (ofId? id).map fun a => cellId a.row.toNat a.col.toNat

/-- A name is canonical if it is the one written for the address it denotes. -/
def IsCanonical (id : String) : Prop := canonicalId? id = some id

instance (id : String) : Decidable (IsCanonical id) := inferInstanceAs (Decidable (_ = _))

end Address

end Spreadsheet
