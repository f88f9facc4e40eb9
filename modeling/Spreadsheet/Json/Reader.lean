import Spreadsheet.Json
import Spreadsheet.OrderedMap

/-!
# Reading JSON

The tree of a JSON text.

The reader takes exactly the grammar of JSON, and the three names `NaN`,
`Infinity` and `-Infinity` as numbers. A number with a point or an exponent is a
double, any other a whole number. Where an object repeats a key, the first place
and the last value count. Control characters have to be escaped inside strings,
and a byte order mark at the start is refused.

Reading a value takes characters away from the rest of the text, and so does
every step into a list or an object. The number of characters therefore bounds
the depth of the recursion, and the bound is never what ends it.

## Main definitions

* `Json.readString`: The characters up to the closing quote.
* `Json.readNumber`: A number and what follows it.
* `Json.readValue`: A value and what follows it.
* `Json.parse?`: The tree of a whole text.
-/

namespace Spreadsheet

namespace Json

/-- A reader takes something off the start of a text, or refuses it. -/
abbrev Reader (α : Type) := List Char → Option (α × List Char)

/-- Whether a character may stand between tokens. -/
def isSpace (c : Char) : Bool := c = ' ' ∨ c = '\t' ∨ c = '\n' ∨ c = '\r'

/-- The text without the space at its start. -/
def skipSpace (cs : List Char) : List Char := cs.dropWhile isSpace

/-- The value of a hexadecimal digit. -/
def hexValue? (c : Char) : Option Nat :=
  if '0' ≤ c ∧ c ≤ '9' then some (c.toNat - '0'.toNat)
  else if 'a' ≤ c ∧ c ≤ 'f' then some (c.toNat - 'a'.toNat + 10)
  else if 'A' ≤ c ∧ c ≤ 'F' then some (c.toNat - 'A'.toNat + 10)
  else none

/-- The number spelled by four hexadecimal digits. -/
def hexUnit? (a b c d : Char) : Option Nat := do
  let a ← hexValue? a
  let b ← hexValue? b
  let c ← hexValue? c
  let d ← hexValue? d
  pure (((a * 16 + b) * 16 + c) * 16 + d)

/-- The character that a letter after a backslash stands for. -/
def unescape? : Char → Option Char
  | '"' => some '"'
  | '\\' => some '\\'
  | '/' => some '/'
  | 'b' => some '\x08'
  | 'f' => some '\x0c'
  | 'n' => some '\n'
  | 'r' => some '\r'
  | 't' => some '\t'
  | _ => none

/-- The code points and 16-bit units up to the closing quote, and what follows
    it. An escape may give half of a surrogate pair, which is kept as it is. -/
def readCodes : List Char → Option (List Nat × List Char)
  | [] => none
  | '"' :: rest => some ([], rest)
  | '\\' :: 'u' :: a :: b :: c :: d :: rest => do
    let code ← hexUnit? a b c d
    let (codes, after) ← readCodes rest
    pure (code :: codes, after)
  | '\\' :: letter :: rest => do
    let c ← unescape? letter
    let (codes, after) ← readCodes rest
    pure (c.toNat :: codes, after)
  | c :: rest =>
    -- Control characters have to be escaped.
    if c < ' ' then none
    else do
      let (codes, after) ← readCodes rest
      pure (c.toNat :: codes, after)

/-- The characters of code points and 16-bit units: two halves of a surrogate pair
    in a row are one character, and half a pair alone is replaced. -/
def joinUnits : List Nat → List Char
  | [] => []
  | [code] => [if 0xD800 ≤ code ∧ code < 0xE000 then '\uFFFD' else Char.ofNat code]
  | high :: low :: rest =>
    if 0xD800 ≤ high ∧ high < 0xDC00 ∧ 0xDC00 ≤ low ∧ low < 0xE000 then
      Char.ofNat (0x10000 + (high - 0xD800) * 0x400 + (low - 0xDC00)) :: joinUnits rest
    else
      (if 0xD800 ≤ high ∧ high < 0xE000 then '\uFFFD' else Char.ofNat high)
        :: joinUnits (low :: rest)

/-- The text up to the closing quote, and what follows it. -/
def readString : Reader String := fun cs =>
  (readCodes cs).map fun (codes, after) => (String.ofList (joinUnits codes), after)

/-- The digits of the whole part of a number: a zero alone, or digits that do not
    start with one. -/
def readWhole : Reader (List Char)
  | '0' :: rest => some (['0'], rest)
  | cs =>
    let digits := cs.takeWhile Text.isAsciiDigit
    if digits.isEmpty then none else some (digits, cs.dropWhile Text.isAsciiDigit)

/-- The digits after a point, if a point with digits comes next. -/
def readFraction : List Char → Option (List Char) × List Char
  | '.' :: rest =>
    let digits := rest.takeWhile Text.isAsciiDigit
    if digits.isEmpty then (none, '.' :: rest)
    else (some digits, rest.dropWhile Text.isAsciiDigit)
  | cs => (none, cs)

/-- The sign of an exponent, if one comes next: whether it is negative. -/
def readSign : List Char → Bool × List Char
  | '-' :: rest => (true, rest)
  | '+' :: rest => (false, rest)
  | cs => (false, cs)

/-- The exponent, if one with digits comes next. -/
def readExponent : List Char → Option Int × List Char
  | [] => (none, [])
  | c :: cs =>
    let (negative, rest) := readSign cs
    let digits := rest.takeWhile Text.isAsciiDigit
    if (c = 'e' ∨ c = 'E') ∧ digits ≠ [] then
      let size : Int := Literal.digitsValue digits
      (some (if negative then -size else size), rest.dropWhile Text.isAsciiDigit)
    else (none, c :: cs)

/-- The number of a sign, digits, and perhaps a fraction and an exponent. -/
def numberOf (negative : Bool) (whole : List Char) (fraction : Option (List Char))
    (exponent : Option Int) : Number :=
  if fraction.isNone && exponent.isNone then
    let size : Int := Literal.digitsValue whole
    .whole (if negative then -size else size)
  else
    let after := fraction.getD []
    let size := Decimal.toFloat
      ⟨Literal.digitsValue (whole ++ after), exponent.getD 0 - (after.length : Int)⟩
    .float (if negative then -size else size)

/-- A number without its sign. -/
def readUnsigned (negative : Bool) : Reader Number := fun cs => do
  let (whole, rest) ← readWhole cs
  let (fraction, rest) := readFraction rest
  let (exponent, rest) := readExponent rest
  pure (numberOf negative whole fraction exponent, rest)

/-- What follows a word, if the text starts with it. -/
def afterWord? (word : String) (cs : List Char) : Option (List Char) :=
  if word.toList.isPrefixOf cs then some (cs.drop word.toList.length) else none

/-- The words that stand for a value. -/
def words : List (String × Json) :=
  [("null", null), ("true", bool true), ("false", bool false),
   ("NaN", number (.float (0.0 / 0.0))), ("Infinity", number (.float (1.0 / 0.0))),
   ("-Infinity", number (.float (-1.0 / 0.0)))]

/-- One of the words, and what follows it. -/
def readWord : Reader Json := fun cs =>
  words.findSome? fun (word, value) => (afterWord? word cs).map fun rest => (value, rest)

/-- A number and what follows it. -/
def readNumber : Reader Number
  | '-' :: cs => readUnsigned true cs
  | cs => readUnsigned false cs

/-- The rest of a list after an item is due: items with commas between them, up to
    the closing bracket. -/
def readItems (item : Reader Json) : Nat → Reader (List Json)
  | 0, _ => none
  | n + 1, cs => do
    let (value, rest) ← item (skipSpace cs)
    match skipSpace rest with
    | ']' :: after => pure ([value], after)
    | ',' :: more => do
      let (values, after) ← readItems item n more
      pure (value :: values, after)
    | _ => none

/-- The rest of an object after a field is due: fields with commas between them,
    up to the closing bracket. -/
def readFields (item : Reader Json) : Nat → Reader (List (String × Json))
  | 0, _ => none
  | n + 1, cs =>
    match skipSpace cs with
    | '"' :: rest => do
      let (key, rest) ← readString rest
      match skipSpace rest with
      | ':' :: rest => do
        let (value, rest) ← item (skipSpace rest)
        match skipSpace rest with
        | '\x7d' :: after => pure ([(key, value)], after)
        | ',' :: more => do
          let (fields, after) ← readFields item n more
          pure ((key, value) :: fields, after)
        | _ => none
      | _ => none
    | _ => none

/-- The members of a list or an object: none if the bracket closes at once. -/
def readMembers {α : Type} (closing : Char) (members : Nat → Reader (List α)) : Reader (List α) :=
  fun cs =>
    match skipSpace cs with
    | [] => none
    | c :: rest => if c = closing then some ([], rest) else members cs.length cs

/-- A value and what follows it, with lists and objects nested at most `depth`
    deep. -/
def readValue : Nat → Reader Json
  | 0, _ => none
  | depth + 1, cs =>
    match cs with
    | '"' :: rest => (readString rest).map fun (s, after) => (text s, after)
    | '[' :: rest =>
      (readMembers ']' (readItems (readValue depth)) rest).map fun (items, after) =>
        (array items, after)
    | '\x7b' :: rest =>
      (readMembers '\x7d' (readFields (readValue depth)) rest).map fun (fields, after) =>
        (object (OrderedMap.ofList fields).entries, after)
    | _ => readWord cs <|> (readNumber cs).map fun (n, after) => (number n, after)

/-- The tree of a text, if it is the text of one value with nothing but space
    around it. -/
def parse? (s : String) : Option Json :=
  let cs := s.toList
  match readValue (cs.length + 1) (skipSpace cs) with
  | some (value, rest) => if (skipSpace rest).isEmpty then some value else none
  | none => none

end Json

end Spreadsheet
