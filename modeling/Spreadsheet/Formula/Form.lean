import Spreadsheet.Formula.Mention
import Spreadsheet.Formula.Nesting
import Spreadsheet.Number

/-!
# Forms of Expressions

What kind of expression a text is.

An expression takes one of a few forms, tried in a fixed order: nothing at all, a
quoted text, a number, a cell, a range, a call, and otherwise arithmetic. Only
the last two have parts that are expressions again. The parts of a call are its
arguments. Arithmetic is cut into pieces: calls and cells, whose values will be
written in their place, and the single characters between them. String literals
are cut into characters whatever is in them.

Finding the form looks at one level of the text only, and not at any cell. What
the parts are is found when they are evaluated.

## Main definitions

* `Piece`: A part of an arithmetic expression.
* `Piece.scan`: The pieces of a text.
* `Form`: The kinds of expressions.
* `Form.ofTrimmed`: The form of a text without blanks around it.
* `Form.parts`: The texts that are evaluated on the way.
-/

namespace Spreadsheet

/-- A part of an arithmetic expression. -/
inductive Piece where
  /-- A character that stands for itself. -/
  | plain (c : Char)
  | cell (name : String)
  /-- A call, with its name and its parentheses. -/
  | call (text : List Char)
deriving DecidableEq, Repr

/-- What starts at a place in an arithmetic expression. -/
inductive Piece.Start where
  | cell (name : List Char)
  /-- A call that takes so many characters. -/
  | call (length : Nat)
  /-- A call whose parenthesis is never closed. -/
  | unclosed
deriving DecidableEq, Repr

namespace Piece

/-- What starts with the first character of a text, if it is more than that
    character. -/
def start? (cs : List Char) : Option Start :=
  match Call.start? cs with
  | some (name, rest) =>
    match Nesting.matching? rest with
    | some n => some (.call (name.length + 1 + n + 1))
    | none => some .unclosed
  | none => (Mention.name? cs).map Start.cell

/-- The pieces of a marked text after its first `skip` characters. A call that is
    never closed makes everything after it plain. -/
def scanFrom : Nat → List (Char × Bool) → List Piece
  | _, [] => []
  | skip + 1, _ :: rest => scanFrom skip rest
  | 0, (c, true) :: rest => plain c :: scanFrom 0 rest
  | 0, (c, false) :: rest =>
    -- A call may reach into a string literal, so its text is taken without the marks.
    let cs := c :: rest.map Prod.fst
    match if Column.isLetter c then start? cs else none with
    | none => plain c :: scanFrom 0 rest
    | some (.cell name) => cell (String.ofList name) :: scanFrom (name.length - 1) rest
    | some (.call length) => call (cs.take length) :: scanFrom (length - 1) rest
    | some .unclosed => cs.map plain

/-- The pieces of a text. -/
def scan (cs : List Char) : List Piece := scanFrom 0 (StringLiteral.mark cs)

end Piece

/-- The kinds of expressions. -/
inductive Form where
  | blank
  | quoted (content : List Char)
  | number (n : Number)
  | cell (name : String)
  | range (r : RangeReference)
  /-- What is written like a range but names no block. -/
  | nowhere (text : List Char)
  /-- A call, with the text between its parentheses. -/
  | call (name : String) (arguments : List Char)
  /-- Anything else. -/
  | arithmetic (text : List Char) (pieces : List Piece)
deriving DecidableEq

namespace Form

/-- Whether a text starts and ends with a double quote. One quote alone does
    both. -/
def isQuoted (cs : List Char) : Bool := cs.head? = some '"' ∧ cs.getLast? = some '"'

/-- The cell or the range that a whole text is, if it is one. -/
def reference? (cs : List Char) : Option Form :=
  match Mention.atStart? cs with
  | none => none
  | some m =>
    if m.chars.length = cs.length then
      match m with
      | .cell name => some (cell (String.ofList name))
      | .range .. =>
        match Block.ofChars cs with
        | .ok block => some (range ⟨String.ofList cs, block⟩)
        | .error _ => some (nowhere cs)
    else none

/-- The call that a whole text is, if it is one, and arithmetic otherwise. -/
def operation (cs : List Char) : Form :=
  match Call.whole? cs with
  | some (name, arguments) => call (String.ofList name) arguments
  | none => arithmetic cs (Piece.scan cs)

/-- The form of a text without blanks around it. -/
def ofTrimmed (cs : List Char) : Form :=
  if cs.isEmpty then blank
  else if isQuoted cs then quoted (cs.drop 1).dropLast
  else
    match Literal.value? cs with
    | some x => number (Number.ofFloat x)
    | none => (reference? cs).getD (operation cs)

/-- The text of a piece that is evaluated by itself. -/
def partOfPiece? : Piece → Option (List Char)
  | .call text => some text
  | _ => none

/-- The texts that are evaluated on the way to the value of a form. -/
def parts : Form → List (List Char)
  | call _ arguments => Call.arguments arguments
  | arithmetic _ pieces => pieces.filterMap partOfPiece?
  | _ => []

end Form

end Spreadsheet
