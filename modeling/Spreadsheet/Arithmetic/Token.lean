import Spreadsheet.Number.Layout
import Spreadsheet.Number.Literal
import Spreadsheet.Text.Blank
import Spreadsheet.Text.Quote

/-!
# Arithmetic Tokens

The words of an arithmetic expression.

An expression is made of numbers, four operators and parentheses. A number is
the longest run of digits with at most one point in it: digits, perhaps a point,
perhaps more digits; or a point and digits. Blanks separate tokens and are
dropped. Any other character is an error, and the whole text is cut into tokens
before anything is evaluated.

## Main definitions

* `ArithmeticError`: Why an expression has no value.
* `Token`: A number, an operator or a parenthesis.
* `Token.number?`: The number at the start of a text.
* `Token.ofChars`: The tokens of a text.
-/

namespace Spreadsheet

/-- A word of an arithmetic expression. -/
inductive Token where
  | number (x : Float)
  /-- Addition, or a sign. -/
  | plus
  /-- Subtraction, or a sign. -/
  | minus
  | times
  | divide
  | opening
  | closing
deriving DecidableEq, Repr

/-- Why an expression has no value. -/
inductive ArithmeticError where
  | unexpectedCharacter (c : Char)
  | emptyExpression
  /-- A parenthesis that is not closed where it has to be. -/
  | unbalanced
  /-- A token where none may stand, or the end where one is needed. -/
  | unexpectedToken (t : Option Token)
  | divisionByZero
  /-- More levels of signs and parentheses than can be followed. -/
  | tooDeep
deriving DecidableEq, Repr

namespace Token

/-- The text of a token in a message. -/
def describe : Token → String
  | number x => Layout.compact.text x
  | plus => "'+'"
  | minus => "'-'"
  | times => "'*'"
  | divide => "'/'"
  | opening => "'('"
  | closing => "')'"

/-- The token of a character that stands by itself. -/
def ofSymbol? : Char → Option Token
  | '+' => some plus
  | '-' => some minus
  | '*' => some times
  | '/' => some divide
  | '(' => some opening
  | ')' => some closing
  | _ => none

/-- The number at the start of a text, and how many characters it takes. -/
def number? (cs : List Char) : Option (Float × Nat) :=
  let whole := cs.takeWhile Text.isDigit
  match cs.dropWhile Text.isDigit with
  | '.' :: rest =>
    let fraction := rest.takeWhile Text.isDigit
    if whole.isEmpty && fraction.isEmpty then none
    else some (Literal.decimalValue whole fraction, whole.length + 1 + fraction.length)
  | _ => if whole.isEmpty then none else some (Literal.decimalValue whole [], whole.length)

/-- The tokens of a text, after its first `skip` characters. -/
def ofCharsFrom : Nat → List Char → Except ArithmeticError (List Token)
  | _, [] => .ok []
  | skip + 1, _ :: rest => ofCharsFrom skip rest
  | 0, c :: rest =>
    if Text.isBlank c then ofCharsFrom 0 rest
    else
      match number? (c :: rest) with
      | some (x, length) => (ofCharsFrom (length - 1) rest).map (number x :: ·)
      | none =>
        match ofSymbol? c with
        | some t => (ofCharsFrom 0 rest).map (t :: ·)
        | none => .error (.unexpectedCharacter c)

/-- The tokens of a text. -/
def ofChars (cs : List Char) : Except ArithmeticError (List Token) := ofCharsFrom 0 cs

end Token

namespace ArithmeticError

/-- The text shown for an error. Two of them are named by their kind alone. -/
def message? : ArithmeticError → Option String
  | unexpectedCharacter c =>
    some ("Unexpected character " ++ Text.quote (String.ofList [c]))
  | emptyExpression => some "Empty expression"
  | unbalanced => some "Unbalanced parenthesis"
  | unexpectedToken t => some ("Unexpected token " ++ (t.map Token.describe).getD "None")
  | divisionByZero => none
  | tooDeep => none

end ArithmeticError

end Spreadsheet
