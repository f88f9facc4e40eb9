import Spreadsheet.Value

/-!
# Arguments of Functions

What functions are given, and how they read it.

A function receives the values of its arguments, the ranges among them replaced
by the values of their cells. It may also be called with a value missing. Numbers
are read from numbers and from texts that spell one; truth values, errors and
ranges are not numbers. A whole number that no double can hold cannot be read,
and the function fails.

## Main definitions

* `CallFault`: Why a function gives no result.
* `Function`: What can be called in a formula.
* `Argument.number?`: The number that an argument is read as.
* `Argument.numbers`: The numbers among the arguments.
* `Argument.isTrue`: Whether a condition holds.
-/

namespace Spreadsheet

/-- Why a function gives no result. -/
inductive CallFault where
  /-- A number is beyond the doubles. -/
  | beyondDoubles
  /-- Rounding to infinitely many places. -/
  | infinitePlaces
  /-- Rounding to a number of places that is not a number. -/
  | undefinedPlaces
  | zeroToNegativePower
  | negativeRoot
  /-- A fractional power of a negative number. -/
  | fractionalPower
  /-- A reason of its own. -/
  | refused
deriving DecidableEq, Repr

namespace CallFault

/-- The text shown for a fault, where it has one. -/
def message? : CallFault → Option String
  | negativeRoot => some "SQRT: negative argument"
  | fractionalPower => some "POWER: negative base with fractional exponent"
  | _ => none

end CallFault

/-- What can be called in a formula: it is given values, some of which may be
    missing, and gives a value, which may be missing too. -/
abbrev Function := List (Option Value) → Except CallFault (Option Value)

namespace Argument

/-- The number that an argument is read as, if it is one. Texts count if they
    spell a number. -/
def number? (v : Option Value) : Except CallFault (Option Float) :=
  match v with
  | some (.number n) =>
    match n.toFloat? with
    | some x => .ok (some x)
    | none => .error .beyondDoubles
  | some (.text s) => .ok (Literal.value? (Text.trim s.toList))
  | _ => .ok none

/-- The number that an argument is read as, with a value for what is none. -/
def numberOr (default : Float) (v : Option Value) : Except CallFault Float :=
  (number? v).map fun x => x.getD default

/-- The argument at a position, missing if there are fewer. -/
def nth (args : List (Option Value)) (i : Nat) : Option Value := (args[i]?).join

/-- The numbers among the arguments. What is no number is left out, and so is
    NaN. -/
def numbers (args : List (Option Value)) : Except CallFault (List Float) :=
  (args.mapM number?).map fun xs => xs.filterMap fun x => x.filter fun x => !x.isNaN

/-- Whether an argument is missing or an empty text. -/
def isVoid : Option Value → Bool
  | none => true
  | some (.text s) => s.isEmpty
  | some (.error code) => code.isEmpty
  | some _ => false

/-- Whether a condition holds: numbers other than zero and NaN, texts that are not
    empty, and ranges. -/
def isTrue (v : Option Value) : Except CallFault Bool :=
  match v with
  | none => .ok false
  | some (.bool b) => .ok b
  | some (.number n) =>
    match n.toFloat? with
    | some x => .ok (!(x == 0) && !x.isNaN)
    | none => .error .beyondDoubles
  | some v => .ok (!isVoid (some v))

end Argument

end Spreadsheet
