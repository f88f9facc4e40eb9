import Spreadsheet.Proofs.Evaluate.Consults

/-!
# Whole Doubles Do Not Show

No formula comes to a double that is a whole number.

A number shows as `3`, never as `3.0`, and two cells that show the same whole number
hold the same one. For this a double that is whole has to become a whole number
wherever one is made: where a literal is read, where arithmetic ends, and where a
function gives a result, which may be any value for a function that is not builtin.
What is left are the values of cells, which evaluation hands on as they are. So a
formula comes to a normal value (`Value.IsNormal`) whenever the cells show normal
values.

## Main definitions

* `Value.IsNormal`: A value that is no whole double.

## Theorems

* `Value.isNormal_ofResult`: The value of a call is normal, whatever the function.
* `Scope.isNormal_evaluate`: Formulas come to normal values.
-/

namespace Spreadsheet

namespace Value

/-- A value that is no double, or a double that is no whole number. -/
def IsNormal (v : Value) : Prop := ∀ x, v = number (.float x) → Double.whole? x = none

theorem isNormal_text (s : String) : (text s).IsNormal := fun _ h => by cases h

theorem isNormal_of_isError {v : Value} (h : v.isError = true) : v.IsNormal := by
  intro x hx
  rw [hx] at h
  cases h

/-- A double that was made a whole number if it is one is not whole. -/
theorem isNormal_number_ofFloat (x : Float) : (number (.ofFloat x)).IsNormal := by
  intro y hy
  rw [Number.ofFloat] at hy
  cases hwhole : Double.whole? x with
  | some n =>
      rw [hwhole] at hy
      cases hy
  | none =>
      rw [hwhole] at hy
      rw [← Number.float.inj (Value.number.inj hy)]
      exact hwhole

theorem isNormal_ofFloat (x : Float) : (ofFloat x).IsNormal := by
  rw [ofFloat]
  split
  · exact isNormal_number_ofFloat x
  · exact isNormal_of_isError rfl

/-- The value of a text that was typed in is normal. -/
theorem isNormal_ofLiteral (s : String) : (ofLiteral s).IsNormal := by
  rw [ofLiteral]
  cases hnumber : Number.ofText? s with
  | none => exact isNormal_text s
  | some n =>
      rcases Option.map_eq_some_iff.mp hnumber with ⟨x, _, rfl⟩
      exact isNormal_number_ofFloat x

/-- The value of a call is normal, whatever the result of the function. -/
theorem isNormal_ofResult (v : Option Value) : (ofResult v).IsNormal := by
  unfold ofResult
  split
  · exact isNormal_text ""
  · exact fun x h => by cases h
  · exact isNormal_ofFloat _
  · exact isNormal_text _
  · -- What is left of the numbers are whole ones.
    rename_i v hfloat _
    exact fun x h => absurd h (hfloat x)

theorem isNormal_valueOf (text cs : List Char) : (Arithmetic.valueOf text cs).IsNormal := by
  rw [Arithmetic.valueOf]
  split
  · exact isNormal_text _
  · split
    · exact isNormal_ofFloat _
    · exact isNormal_of_isError rfl

end Value

namespace Scope

variable {scope : Scope}

theorem isNormal_call (f : Function) (arguments : List Value) :
    (scope.call f arguments).IsNormal := by
  rw [call]
  split
  · exact Value.isNormal_ofResult _
  · exact Value.isNormal_of_isError rfl

/-- Expressions come to normal values if the cells show normal values. -/
theorem isNormal_value? (hcells : ∀ id, (scope.cells.valueAt id).IsNormal) {depth : Nat}
    {cs : List Char} {v : Value} (h : scope.value? depth cs = some v) : v.IsNormal := by
  cases origin_of_value? h with
  | text hvalue =>
      rw [hvalue]
      exact Value.isNormal_text _
  | number hform hvalue =>
      rcases Form.eq_of_number hform with ⟨x, rfl⟩
      rw [hvalue]
      exact Value.isNormal_number_ofFloat x
  | cell hform hvalue =>
      -- This is the one form that makes no value of its own.
      rw [hvalue]
      exact hcells _
  | range hform hvalue =>
      rw [hvalue]
      exact fun x hx => by cases hx
  | error herror => exact Value.isNormal_of_isError herror
  | call f arguments hvalue =>
      rw [hvalue]
      exact isNormal_call f arguments
  | arithmetic text cs hvalue =>
      rw [hvalue]
      exact Value.isNormal_valueOf text cs

/-- Formulas come to normal values if the cells show normal values. -/
theorem isNormal_evaluate (hcells : ∀ id, (scope.cells.valueAt id).IsNormal) (text : String) :
    (scope.evaluate text).IsNormal := by
  rcases scope.evaluate_cases text with herror | ⟨s, hs⟩ | ⟨_, _, hvalue, _⟩
  · rw [herror]
    exact Value.isNormal_of_isError rfl
  · rw [hs]
    exact Value.isNormal_text s
  · exact isNormal_value? hcells hvalue

end Scope

end Spreadsheet
