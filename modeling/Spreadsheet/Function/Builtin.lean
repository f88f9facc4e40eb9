import Spreadsheet.Function.Power

/-!
# Builtin Functions

The functions that every formula can call.

There are fourteen, in four groups. The aggregates take any number of arguments
and are meant for ranges; the others take a fixed number, ignore what is too much
and put a default for what is missing. Results are given as they are computed;
that a whole double becomes a whole number, and that infinity becomes an error,
is decided where the call is evaluated.

Rounding works on the decimal that is shown for a number and not on its binary
value, so `2.345` to two places is `2.35` although the double lies below. Adding
starts from zero and goes from left to right.

## Main definitions

* `Builtin`: The builtin functions.
* `Builtin.name`, `Builtin.category`: Their names and groups.
* `Builtin.apply`: Their results.
* `Builtin.ofName?`: The function with a name, in any case.
-/

namespace Spreadsheet

/-- The builtin functions. -/
inductive Builtin where
  | sum
  /-- The mean of the numbers among the arguments. -/
  | average
  | min
  | max
  /-- How many arguments are finite numbers. -/
  | count
  /-- How many arguments are neither missing nor empty. -/
  | counta
  /-- One of two arguments, chosen by a condition. -/
  | choose
  | concat
  | upper
  | lower
  | round
  | abs
  | sqrt
  | power
deriving DecidableEq, Repr

/-- The groups of functions. -/
inductive Category where
  | aggregate
  | logic
  | text
  | math
deriving DecidableEq, Repr

namespace Category

/-- The name of a group. -/
def name : Category → String
  | aggregate => "aggregate"
  | logic => "logic"
  | text => "text"
  | math => "math"

end Category

namespace Builtin

/-- All builtin functions. -/
def all : List Builtin :=
  [sum, average, min, max, count, counta, choose, concat, upper, lower, round, abs, sqrt, power]

/-- The name by which a formula calls the function. -/
def name : Builtin → String
  | sum => "SUM"
  | average => "AVERAGE"
  | min => "MIN"
  | max => "MAX"
  | count => "COUNT"
  | counta => "COUNTA"
  | choose => "IF"
  | concat => "CONCAT"
  | upper => "UPPER"
  | lower => "LOWER"
  | round => "ROUND"
  | abs => "ABS"
  | sqrt => "SQRT"
  | power => "POWER"

/-- The group of the function. -/
def category : Builtin → Category
  | sum | average | min | max | count | counta => .aggregate
  | choose => .logic
  | concat | upper | lower => .text
  | round | abs | sqrt | power => .math

/-- The function with a name, however it is capitalised. -/
def ofName? (name : String) : Option Builtin :=
  let name := Text.upper name
  all.find? fun f => f.name == name

/-- Numbers added from left to right, from zero. -/
def total (xs : List Float) : Float := xs.foldl (· + ·) 0

/-- The sum of the arguments, where what is no number counts as zero. Without
    arguments it is the whole number zero. -/
def sumOf (args : List (Option Value)) : Except CallFault Number := do
  let xs ← args.mapM (Argument.numberOr 0)
  pure (if xs.isEmpty then .whole 0 else .float (total xs))

/-- The mean of numbers, zero if there are none. -/
def meanOf (xs : List Float) : Float :=
  if xs.isEmpty then 0 else total xs / Float.ofNat xs.length

/-- The first of the numbers that no other one is `better` than, zero if there are
    none. -/
def bestOf (better : Float → Float → Bool) : List Float → Float
  | [] => 0
  | x :: xs => xs.foldl (fun best y => if better y best then y else best) x

/-- The number of places that an argument asks for, its fraction cut off. -/
def placesOf (x : Float) : Except CallFault Int :=
  if x.isNaN then .error .undefinedPlaces
  else if x.isInf then .error .infinitePlaces
  else .ok (Double.truncate x)

/-- The decimal that is shown for a nonzero number, rounded to a number of places
    after the point (before it, if negative), a half going away from zero. -/
def roundShown (x : Float) (places : Int) : Float :=
  let shown := shortest x
  if -places ≤ shown.exponent then x
  -- The number is below half a unit, so the result is zero, whatever the sign.
  else if shown.leadingExponent < -places - 1 then 0
  else
    let size := (shown.roundAt (-places)).toFloat
    if Double.isNegative x then -size else size

/-- A number rounded to a number of places. Infinities and NaN stay as they are,
    and a zero keeps its sign unless digits before the point are cut. -/
def roundTo (x : Float) (places : Int) : Float :=
  if !x.isFinite then x
  else if x == 0 then (if places < 0 then 0 else x)
  else roundShown x places

/-- The square root of a number that is not negative. -/
def rootOf (x : Float) : Except CallFault Float :=
  if x < 0 then .error .negativeRoot else .ok x.sqrt

/-- A double as the result of a function. -/
def double (x : Float) : Option Value := some (.number (.float x))

/-- The result of the function. -/
def apply : Builtin → Function
  | sum, args => do pure (some (.number (← sumOf args)))
  | average, args => do pure (double (meanOf (← Argument.numbers args)))
  | min, args => do pure (double (bestOf (fun x y => x < y) (← Argument.numbers args)))
  | max, args => do pure (double (bestOf (fun x y => x > y) (← Argument.numbers args)))
  | count, args => do
    let finite := (← Argument.numbers args).filter Float.isFinite
    pure (some (.number (.whole finite.length)))
  | counta, args =>
    let filled := args.filter fun v => !Argument.isVoid v
    pure (some (.number (.whole filled.length)))
  | choose, args => do
    let branch := if ← Argument.isTrue (Argument.nth args 0) then 1 else 2
    pure (some ((Argument.nth args branch).getD (.text "")))
  | concat, args => pure (some (.text (String.join (args.map Value.displayOption))))
  | upper, args => pure (some (.text (Text.upper (Value.displayOption (Argument.nth args 0)))))
  | lower, args => pure (some (.text (Text.lower (Value.displayOption (Argument.nth args 0)))))
  | round, args => do
    let x ← Argument.numberOr 0 (Argument.nth args 0)
    let places ← placesOf (← Argument.numberOr 0 (Argument.nth args 1))
    pure (double (roundTo x places))
  | abs, args => do pure (double (← Argument.numberOr 0 (Argument.nth args 0)).abs)
  | sqrt, args => do pure (double (← rootOf (← Argument.numberOr 0 (Argument.nth args 0))))
  | power, args => do
    let base ← Argument.numberOr 0 (Argument.nth args 0)
    let exponent ← Argument.numberOr 1 (Argument.nth args 1)
    pure (double (← Spreadsheet.power base exponent))

end Builtin

end Spreadsheet
