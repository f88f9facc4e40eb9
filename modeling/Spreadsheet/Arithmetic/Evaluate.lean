import Spreadsheet.Arithmetic.Token

/-!
# Arithmetic

The values of arithmetic expressions.

The grammar has three levels. A sum is made of products with `+` and `-` between
them, a product of factors with `*` and `/` between them, and a factor is a
number, a sum in parentheses, or a factor with a sign in front. Operators of one
level are taken from left to right.

A value is computed as soon as its parts are read. This shows when an expression
has two faults: a division by zero is reported if it comes before a syntax error
in the text, and not if it comes after.

Signs and parentheses may be nested only so deep; the depth is what the recursion
goes down on. The loop over the operators of one level counts down the tokens
that are left, of which every round takes at least one, so it never stops early.

## Main definitions

* `Arithmetic.chain`: Operands with operators between them.
* `Arithmetic.sum`, `Arithmetic.product`, `Arithmetic.factor`: The three levels.
* `Arithmetic.evaluate`: The value of a text.
-/

namespace Spreadsheet

namespace Arithmetic

/-- A reader takes something off the start of a list of tokens and gives its
    value. -/
abbrev Reader := List Token → Except ArithmeticError (Float × List Token)

/-- An operation on two values, which may fail. -/
abbrev Operation := Float → Float → Except ArithmeticError Float

/-- The operations of the level of sums. -/
def sumOperation? : Token → Option Operation
  | .plus => some fun x y => .ok (x + y)
  | .minus => some fun x y => .ok (x - y)
  | _ => none

/-- The operations of the level of products. Nothing is divided by a zero of
    either sign. -/
def productOperation? : Token → Option Operation
  | .times => some fun x y => .ok (x * y)
  | .divide => some fun x y => if y == 0 then .error .divisionByZero else .ok (x / y)
  | _ => none

/-- The rest of a chain after the value `x`: operators of the level, each with an
    operand, applied from left to right. -/
def chainAfter (operation? : Token → Option Operation) (operand : Reader) :
    Nat → Float → Reader
  | 0, x, ts => .ok (x, ts)
  | n + 1, x, ts =>
    match ts with
    | [] => .ok (x, [])
    | t :: rest =>
      match operation? t with
      | none => .ok (x, t :: rest)
      | some operation => do
        let (y, rest) ← operand rest
        let z ← operation x y
        chainAfter operation? operand n z rest

/-- Operands with operators of one level between them. -/
def chain (operation? : Token → Option Operation) (operand : Reader) : Reader := fun ts => do
  let (x, rest) ← operand ts
  chainAfter operation? operand rest.length x rest

/-- A product of what `factor` reads. -/
def product (factor : Reader) : Reader := chain productOperation? factor

/-- A sum of products. -/
def sum (factor : Reader) : Reader := chain sumOperation? (product factor)

/-- A factor with signs and parentheses nested less than `depth` deep. -/
def factor : Nat → Reader
  | 0, _ => .error .tooDeep
  | _ + 1, [] => .error (.unexpectedToken none)
  | _ + 1, .number x :: rest => .ok (x, rest)
  | depth + 1, .minus :: rest => do
    let (x, rest) ← factor depth rest
    pure (-x, rest)
  | depth + 1, .plus :: rest => factor depth rest
  | depth + 1, .opening :: rest => do
    let (x, rest) ← sum (factor depth) rest
    match rest with
    | .closing :: rest => pure (x, rest)
    | _ => .error .unbalanced
  | _ + 1, t :: _ => .error (.unexpectedToken (some t))

/-- The number of levels that are followed. -/
def depthLimit : Nat := 400

/-- The value of a list of tokens, all of which have to be used. -/
def evaluateTokens (ts : List Token) : Except ArithmeticError Float := do
  if ts.isEmpty then throw .emptyExpression
  let (x, rest) ← sum (factor depthLimit) ts
  match rest with
  | [] => pure x
  | t :: _ => .error (.unexpectedToken (some t))

/-- The value of a text. -/
def evaluate (cs : List Char) : Except ArithmeticError Float := do
  evaluateTokens (← Token.ofChars cs)

end Arithmetic

end Spreadsheet
