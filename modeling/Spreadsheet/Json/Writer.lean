import Spreadsheet.Json

/-!
# Writing JSON

The text of a JSON tree.

Every character outside the printable ASCII range is written as a `\u` escape of
its 16-bit units, so a document is plain ASCII. On one line, a space follows
each comma and colon. Over several lines, every item and field stands on a line
of its own, indented by its depth; a list or an object without members stays on
one line. Infinities and NaN are written by name.

## Main definitions

* `Json.quoted`: A text as a JSON string.
* `Json.write`: A tree on one line, or indented.
-/

namespace Spreadsheet

namespace Json

/-- The escape of a 16-bit unit. -/
def unitEscape (unit : Nat) : List Char := '\\' :: 'u' :: Text.hexDigits 4 unit

/-- The 16-bit units of a character: itself, or a surrogate pair. -/
def units (c : Char) : List Nat :=
  if c.toNat < 0x10000 then [c.toNat]
  else [0xD800 + (c.toNat - 0x10000) / 0x400, 0xDC00 + (c.toNat - 0x10000) % 0x400]

/-- The letter that stands for a character after a backslash, if it has one. -/
def escapeLetter? (c : Char) : Option Char :=
  if c = '"' ∨ c = '\\' then some c
  else if c = '\n' then some 'n'
  else if c = '\r' then some 'r'
  else if c = '\t' then some 't'
  else if c = '\x08' then some 'b'
  else if c = '\x0c' then some 'f'
  else none

/-- A character inside a JSON string. -/
def quotedChar (c : Char) : List Char :=
  match escapeLetter? c with
  | some letter => ['\\', letter]
  | none => if ' ' ≤ c ∧ c ≤ '~' then [c] else (units c).flatMap unitEscape

/-- A text as a JSON string. -/
def quoted (s : String) : String :=
  String.ofList ('"' :: s.toList.flatMap quotedChar ++ ['"'])

/-- The text of a number. Infinities and NaN have names. -/
def numberText : Number → String
  | .whole n => toString n
  | .float x =>
    if x.isNaN then "NaN"
    else if x.isInf then (if Double.isNegative x then "-Infinity" else "Infinity")
    else Layout.compact.text x

/-- The start of a line at a depth: nothing on one line, else a line break and
    blanks. -/
def lineStart (indent : Option Nat) (depth : Nat) : String :=
  match indent with
  | none => ""
  | some width => "\n" ++ String.ofList (List.replicate (width * depth) ' ')

/-- The members of a list or an object between its brackets. -/
def bracketed (indent : Option Nat) (depth : Nat) (opening closing : String)
    (members : List String) : String :=
  if members.isEmpty then opening ++ closing
  else
    let separator := if indent.isSome then "," else ", "
    opening ++ lineStart indent (depth + 1)
      ++ String.intercalate (separator ++ lineStart indent (depth + 1)) members
      ++ lineStart indent depth ++ closing

mutual

/-- The text of a tree at a depth. -/
def writeAt (indent : Option Nat) (depth : Nat) : Json → String
  | null => "null"
  | bool b => if b then "true" else "false"
  | number n => numberText n
  | text s => quoted s
  | array items => bracketed indent depth "[" "]" (writeItems indent (depth + 1) items)
  | object fields =>
    bracketed indent depth "\x7b" "\x7d" (writeFields indent (depth + 1) fields)

/-- The texts of the items of a list. -/
def writeItems (indent : Option Nat) (depth : Nat) : List Json → List String
  | [] => []
  | item :: rest => writeAt indent depth item :: writeItems indent depth rest

/-- The texts of the fields of an object. -/
def writeFields (indent : Option Nat) (depth : Nat) : List (String × Json) → List String
  | [] => []
  | (key, value) :: rest =>
    (quoted key ++ ": " ++ writeAt indent depth value) :: writeFields indent depth rest

end

/-- The text of a tree: on one line, or with every member indented by a number of
    blanks for each level. -/
def write (indent : Option Nat) (tree : Json) : String := writeAt indent 0 tree

end Json

end Spreadsheet
