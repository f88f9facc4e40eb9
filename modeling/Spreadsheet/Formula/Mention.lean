import Spreadsheet.Block
import Spreadsheet.Formula.StringLiteral

/-!
# Mentions

The cells and ranges that a formula names.

Scanning a formula for references asks for less than reading it: a mention of a
cell is a run of letters `A` to `Z` followed by a run of digits, wherever it
stands outside the string literals, and a mention of a range is two of these
with a colon between them. The digits may be those of any script, so a mention
need not be the name of a cell; such a mention names nothing that a sheet can
hold under a canonical name.

Mentions are found from left to right and do not overlap. The ends of a range
are not mentions of their own.

## Main definitions

* `Mention`: A cell or a range, as it is written.
* `Mention.name?`: The name at the start of a text.
* `Mention.scan`: The mentions in a text, in order.
* `Formula.references`: The cells that a formula mentions.
* `Formula.rangeTexts`, `Formula.ranges`: The ranges that it mentions, and the
  blocks they name.
-/

namespace Spreadsheet

/-- A cell or a range, as a formula writes it. -/
inductive Mention where
  | cell (name : List Char)
  | range (first last : List Char)
deriving DecidableEq, Repr

namespace Mention

/-- The letters and digits at the start of a text, if there are some of both. -/
def name? (cs : List Char) : Option (List Char) :=
  let letters := cs.takeWhile Column.isLetter
  let digits := (cs.dropWhile Column.isLetter).takeWhile Text.isDigit
  if letters.isEmpty || digits.isEmpty then none else some (letters ++ digits)

/-- The mention at the start of a text, if there is one. A range is preferred. -/
def atStart? (cs : List Char) : Option Mention :=
  match name? cs with
  | none => none
  | some first =>
    match cs.drop first.length with
    | ':' :: rest =>
      match name? rest with
      | some last => some (range first last)
      | none => some (cell first)
    | _ => some (cell first)

/-- The characters of a mention. -/
def chars : Mention → List Char
  | cell name => name
  | range first last => first ++ ':' :: last

/-- The mentions in a text after its first `skip` characters. -/
def scanFrom : Nat → List Char → List Mention
  | _, [] => []
  | skip + 1, _ :: rest => scanFrom skip rest
  | 0, c :: rest =>
    match atStart? (c :: rest) with
    | some m => m :: scanFrom (m.chars.length - 1) rest
    | none => scanFrom 0 rest

/-- The mentions in a text, from left to right. -/
def scan (cs : List Char) : List Mention := scanFrom 0 cs

/-- The name of a mention of a single cell. -/
def cellName? : Mention → Option String
  | cell name => some (String.ofList name)
  | range .. => none

/-- The text of a mention of a range. -/
def rangeText? : Mention → Option String
  | cell _ => none
  | range first last => some (String.ofList (range first last).chars)

end Mention

namespace Formula

/-- The mentions of a formula outside its string literals. -/
def mentions (formula : String) : List Mention :=
  Mention.scan (StringLiteral.strip formula.toList)

/-- The single cells that a formula mentions, each once, in the order in which
    they first appear. -/
def references (formula : String) : List String :=
  ((mentions formula).filterMap Mention.cellName?).eraseDups

/-- The ranges that a formula mentions, each once, in the order in which they
    first appear. -/
def rangeTexts (formula : String) : List String :=
  ((mentions formula).filterMap Mention.rangeText?).eraseDups

/-- The blocks that the ranges of a formula name. A range with an end that is no
    cell names none. -/
def ranges (formula : String) : List Block :=
  (rangeTexts formula).filterMap fun text => (Block.ofText text).toOption

end Formula

end Spreadsheet
