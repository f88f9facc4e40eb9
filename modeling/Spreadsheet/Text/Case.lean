import Spreadsheet.Text.Case.Table

/-!
# Upper and Lower Case

The case forms of whole texts.

The upper-case form of a text is found character by character, though one
character may become several. The lower-case form is too, with one exception:
a capital sigma becomes a final sigma at the end of a word. It ends a word if a
letter stands before it and none behind it, where the marks that may sit on or
between letters are passed over.

The names of functions and the codes of error values are kept in upper case, so
that they are found however they were typed.

## Main definitions

* `upperChar`, `lowerChar`: The case forms of a character on its own.
* `endsWord`: Whether a capital sigma between two texts is a final one.
* `upper`, `lower`: The case forms of a text.
-/

namespace Spreadsheet

namespace Text

/-- The character a run gives for a code point, if the run holds it. The search
    ends at the first run that starts beyond it. -/
def shifted? : List CaseRun → Nat → Option Char
  | [], _ => none
  | run :: rest, n =>
    if n < run.first then none
    else if n ≤ run.last then
      if (n - run.first) % run.step = 0 then some (Char.ofNat (n + run.shift).toNat) else none
    else shifted? rest n

/-- The case form of a character: its sequence, or the character it moves to, or
    the character itself. -/
def caseForm (sequences : List (Nat × List Nat)) (runs : List CaseRun) (c : Char) : List Char :=
  match sequences.lookup c.toNat with
  | some codes => codes.map Char.ofNat
  | none => [(shifted? runs c.toNat).getD c]

/-- The upper-case form of a character. -/
def upperChar (c : Char) : List Char := caseForm upperSequences upperRuns c

/-- The lower-case form of a character that is not a capital sigma. -/
def lowerChar (c : Char) : List Char := caseForm lowerSequences lowerRuns c

/-- Whether the first character that is not passed over is a letter with case. -/
def meetsLetter (cs : List Char) : Bool :=
  ((cs.dropWhile caseIgnorableRanges.contains).head?.map casedRanges.contains).getD false

/-- Whether a capital sigma after `before` (in reverse) and ahead of `after`
    stands at the end of a word. -/
def endsWord (before after : List Char) : Bool := meetsLetter before && !meetsLetter after

/-- The lower-case form of the rest of a text, `before` being what precedes it in
    reverse. -/
def lowerAfter (before : List Char) : List Char → List Char
  | [] => []
  | c :: rest =>
    let form := if c = 'Σ' then [if endsWord before rest then 'ς' else 'σ'] else lowerChar c
    form ++ lowerAfter (c :: before) rest

/-- The text in upper case. -/
def upper (s : String) : String := String.ofList (s.toList.flatMap upperChar)

/-- The text in lower case. -/
def lower (s : String) : String := String.ofList (lowerAfter [] s.toList)

end Text

end Spreadsheet
