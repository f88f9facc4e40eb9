import Spreadsheet.Address
import Spreadsheet.Text.Blank

/-!
# Nesting

Parentheses, quotes and commas: where a call ends, and what its arguments are.

Both questions are answered by one walk through the text that keeps track of
three things: whether the character before was a backslash, whether a quoted
text is open, and how many parentheses are. A double quote opens or closes a
quoted text unless a backslash stands right before it; inside a quoted text,
parentheses and commas mean nothing. A call ends where the depth returns to
zero, and its arguments are what lies between the commas at depth zero.

## Main definitions

* `Nesting`: What the walk keeps track of.
* `Nesting.step`: The walk past one character.
* `Nesting.closing?`: How far away the matching parenthesis is.
* `Call.whole?`: The name and the arguments of a text that is one call.
* `Call.arguments`: The texts between the commas.
-/

namespace Spreadsheet

/-- What is known about the place reached in a text. -/
structure Nesting where
  /-- The character before is a backslash. -/
  escaped : Bool := false
  /-- A quoted text is open. -/
  quoted : Bool := false
  /-- The number of parentheses that are open. It is negative where too many were
      closed. -/
  depth : Int := 0
deriving DecidableEq, Repr

namespace Nesting

/-- The walk past one character. -/
def step (s : Nesting) (c : Char) : Nesting :=
  if c = '"' ∧ !s.escaped then ⟨false, !s.quoted, s.depth⟩
  -- Inside a quoted text only a backslash matters, for the quote that may follow.
  else if s.quoted then ⟨c = '\\', true, s.depth⟩
  else if c = '(' then ⟨false, false, s.depth + 1⟩
  else if c = ')' then ⟨false, false, s.depth - 1⟩
  else ⟨c = '\\', false, s.depth⟩

/-- The number of characters before the one that brings the depth to zero. -/
def closing? (s : Nesting) : List Char → Option Nat
  | [] => none
  | c :: rest =>
    let s := s.step c
    if s.depth = 0 then some 0 else (closing? s rest).map (· + 1)

/-- The number of characters between an opening parenthesis and the one that
    matches it, given what follows the first. -/
def matching? (cs : List Char) : Option Nat := closing? { depth := 1 } cs

/-- The position of the parenthesis that matches the one at `start`. -/
def matchingPosition? (cs : List Char) (start : Nat) : Option Nat :=
  let escaped := cs[start]? == some '\\'
  (closing? { escaped, depth := 1 } (cs.drop (start + 1))).map (start + 1 + ·)

end Nesting

namespace Call

/-- The name and what follows the opening parenthesis, of a text that starts like
    a call: letters `A` to `Z` and a parenthesis. -/
def start? (cs : List Char) : Option (List Char × List Char) :=
  let name := cs.takeWhile Column.isLetter
  match cs.dropWhile Column.isLetter with
  | '(' :: rest => if name.isEmpty then none else some (name, rest)
  | _ => none

/-- The name and the text of the arguments, of a text that is one call: the
    parenthesis after the name is closed by the last character. -/
def whole? (cs : List Char) : Option (List Char × List Char) :=
  match start? cs with
  | none => none
  | some (name, rest) =>
    match Nesting.matching? rest with
    | some n => if n + 1 = rest.length then some (name, rest.take n) else none
    | none => none

/-- The texts between the commas of the rest of an argument list. The part of the
    current argument that was passed is kept in reverse. Blanks around an
    argument are left out, and so is a last argument that is blank. -/
def argumentsFrom (s : Nesting) (current : List Char) : List Char → List (List Char)
  | [] =>
    let last := Text.trim current.reverse
    if last.isEmpty then [] else [last]
  | c :: rest =>
    if c = ',' ∧ !s.quoted ∧ s.depth = 0 then
      -- Unlike the last argument, one before a comma is kept even if it is blank.
      Text.trim current.reverse :: argumentsFrom (s.step c) [] rest
    else argumentsFrom (s.step c) (c :: current) rest

/-- The texts of the arguments between the parentheses of a call. -/
def arguments (cs : List Char) : List (List Char) := argumentsFrom {} [] cs

end Call

end Spreadsheet
