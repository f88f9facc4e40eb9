import Spreadsheet.Arithmetic.Evaluate
import Spreadsheet.Formula.Form
import Spreadsheet.Function.Registry
import Spreadsheet.Sheet

/-!
# Evaluation

The value of a formula.

An expression is evaluated by its form. Texts, numbers, cells and ranges give
their values at once. A call gives what the function makes of the values of its
arguments, where a range stands for the cells of its block. In arithmetic, the
values of cells and calls are written in their place, everything that cannot be
part of an arithmetic expression is left out, and the rest is computed; an error
among the values is the value of the whole, and if nothing is left, the
expression is its own text.

Evaluation never fails: where there is no other value, there is an error value.
Expressions may be nested only so deep. A formula that goes deeper comes to an
error as a whole, whatever the part that is too deep is used for.

## Main definitions

* `Scope`: The cells and functions that a formula can use.
* `Value.ofResult`: The value of a call, from the result of the function.
* `Scope.splice`: An arithmetic expression with values in the place of cells and
  calls.
* `Scope.value?`: The value of an expression.
* `Scope.evaluate`: The value of a text that may be a formula.
* `Sheet.evaluate`: The same, for the cells of a sheet.
-/

namespace Spreadsheet

/-- The cells and functions that a formula can use. -/
structure Scope where
  cells : Cells
  functions : Registry

namespace Value

/-- The value of a number that was computed: an error unless it is finite. -/
def ofFloat (x : Float) : Value := if x.isFinite then number (.ofFloat x) else failure

/-- The value of a call, from the result of the function: nothing becomes the empty
    text, a truth value one or zero, and a range its text. -/
def ofResult : Option Value → Value
  | none => text ""
  | some (bool b) => number (.whole (if b then 1 else 0))
  | some (number (.float x)) => ofFloat x
  | some (range r) => text r.text
  | some v => v

/-- The text of a value inside an arithmetic expression: numbers as they are shown,
    anything else between quotes. -/
def spliced : Value → List Char
  | number n => n.display.toList
  | v => '"' :: v.display.toList ++ ['"']

end Value

namespace Arithmetic

/-- Whether a character can be part of an arithmetic expression. Digits of other
    scripts cannot. -/
def survives (c : Char) : Bool := Text.isAsciiDigit c || "+-*/().".toList.contains c

/-- The value of an arithmetic expression, after all that cannot be part of one is
    left out. If nothing is left, the value is `text`. -/
def valueOf (text cs : List Char) : Value :=
  let rest := cs.filter survives
  if rest.isEmpty then .text (String.ofList text)
  else
    match evaluate rest with
    | .ok x => .ofFloat x
    | .error _ => .failure

end Arithmetic

namespace Scope

/-- The number of levels of expressions that are followed. -/
def depthLimit : Nat := 400

/-- What an argument contributes to the values that a function receives. -/
def contribution (scope : Scope) : Value → List Value
  | .range r => scope.cells.valuesIn r.block
  | v => [v]

/-- The value of a call to a function, given the values of its arguments. -/
def call (scope : Scope) (f : Function) (arguments : List Value) : Value :=
  match f ((arguments.flatMap scope.contribution).map some) with
  | .ok result => .ofResult result
  | .error _ => .failure

/-- The text of an arithmetic expression with values in the place of cells and
    calls, or the first error among the values. -/
def splice (scope : Scope) (value? : List Char → Option Value) :
    List Piece → Option (Except Value (List Char))
  | [] => some (.ok [])
  | .plain c :: rest => (splice scope value? rest).map (Except.map (c :: ·))
  | .cell name :: rest =>
    let v := scope.cells.valueAt name
    if v.isError then some (.error v)
    else (splice scope value? rest).map (Except.map (v.spliced ++ ·))
  | .call text :: rest => do
    let v ← value? text
    if v.isError then some (.error v)
    else (splice scope value? rest).map (Except.map (v.spliced ++ ·))

/-- The value of an expression that is nested less than `depth` deep, and nothing
    for one that goes deeper. -/
def value? (scope : Scope) : Nat → List Char → Option Value
  | 0, _ => none
  | depth + 1, cs =>
    match Form.ofTrimmed (Text.trim cs) with
    | .blank => some (.text "")
    | .quoted content => some (.text (String.ofList content))
    | .number n => some (.number n)
    | .cell name => some (scope.cells.valueAt name)
    | .range r => some (.range r)
    | .nowhere text => some (.text (String.ofList text))
    | .call name arguments =>
      match scope.functions.get? name with
      -- The arguments of an unknown function are not looked at.
      | none => some .nameError
      | some f => do
        let values ← (Call.arguments arguments).mapM (value? scope depth)
        pure (scope.call f values)
    | .arithmetic text pieces => do
      match ← scope.splice (value? scope depth) pieces with
      | .ok spliced => pure (Arithmetic.valueOf text spliced)
      | .error v => pure v

/-- The value of a formula without its equals sign. A range that is not an argument
    is its own text. -/
def expression (scope : Scope) (cs : List Char) : Value :=
  match scope.value? depthLimit cs with
  | none => .failure
  | some (.range r) => .text r.text
  | some v => v

/-- The value of a text: that of the formula, if the text is one, else the text
    itself. -/
def evaluate (scope : Scope) (text : String) : Value :=
  match text.toList with
  | '=' :: cs => scope.expression cs
  | _ => .text text

end Scope

namespace Sheet

/-- The value of a text, given the current values of the cells of a sheet. -/
def evaluate (sheet : Sheet) (functions : Registry) (text : String) : Value :=
  Scope.evaluate ⟨sheet.cells, functions⟩ text

end Sheet

end Spreadsheet
