import Spreadsheet.Block
import Spreadsheet.Number
import Spreadsheet.Text.Case

/-!
# Values

What a cell can hold and what a formula can come to.

Errors are values: a formula that fails comes to an error value, which is shown
in its cell and passed on to the formulas that read it. Its code is text, but an
error is not the same as a text that happens to spell its code, as far as
formulas are concerned. A range is a value only until it is used: as an argument
of a function it stands for the cells of its block, elsewhere for its own text.

## Main definitions

* `Value`: Texts, numbers, truth values, errors and ranges.
* `Value.nameError`, `Value.failure`, `Value.cycle`: The errors that evaluation
  gives.
* `Value.display`: The text of a value.
* `Value.ofLiteral`: The value of a text that was typed in.
-/

namespace Spreadsheet

/-- A value of a cell or of an expression. -/
inductive Value where
  | text (s : String)
  | number (n : Number)
  /-- A truth value, which only functions give. -/
  | bool (b : Bool)
  /-- An error, with the code that is shown for it. -/
  | error (code : String)
  /-- A range whose cells have not been looked up. -/
  | range (r : RangeReference)
deriving DecidableEq

namespace Value

instance : Inhabited Value := ⟨text ""⟩

/-- The error with a code. Codes are in upper case. -/
def errorOf (code : String) : Value := error (Text.upper code)

/-- The error of a call to a function that does not exist. -/
def nameError : Value := error "#NAME?"

/-- The error of a formula that cannot be evaluated. -/
def failure : Value := error "#ERROR!"

/-- The error of a cell that reads itself, directly or through others, or that
    reads such a cell. -/
def cycle : Value := error "#CYCLE!"

/-- Whether a value is an error. -/
def isError : Value → Bool
  | error _ => true
  | _ => false

/-- The text of a value. -/
def display : Value → String
  | text s => s
  | number n => n.display
  | bool b => if b then "True" else "False"
  | error code => code
  | range r => r.text

/-- The value of a text that was typed in: the number that it spells, or the text
    itself, with the blanks around it. -/
def ofLiteral (s : String) : Value :=
  match Number.ofText? s with
  | some n => number n
  | none => text s

/-- The text of what may be missing: nothing for a missing value. -/
def displayOption (v : Option Value) : String := (v.map display).getD ""

end Value

end Spreadsheet
