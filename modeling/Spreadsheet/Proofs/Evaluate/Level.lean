import Spreadsheet.Proofs.Evaluate.Splice
import Spreadsheet.Proofs.Formula.Form
import Spreadsheet.Proofs.Traversal

/-!
# One Level of Evaluation

How an expression comes to its value, given the values of its parts.

Evaluation goes down level by level. A level looks at the form of the text, at cells
and functions, and at what the parts of the text come to on the level below, which
`Scope.valueFrom` takes as a parameter. There are few ways in which it can end.
`Scope.Yields` has one case for each, with all that is known in it: the form, the
function that was found, the values of the arguments, what splicing came to. Whatever
holds of the values of expressions is proved by going through these cases.

## Main definitions

* `Form.ownText?`: The text that a form stands for.
* `Scope.valueFrom`: The value of an expression, given those of its parts.
* `Scope.Yields`: The ways in which an expression comes to a value.

## Theorems

* `Scope.value?_eq_valueFrom`: Each level takes the values of the parts from the next.
* `Scope.Yields.valueFrom_eq`, `Scope.yields_of_valueFrom`: These ways lead to the value,
  and no others do.
* `Scope.Yields.mono`: What a way to a value depends on.
* `Scope.Yields.value?_eq`, `Scope.yields_of_value?`: The same, for evaluation as a whole.
-/

namespace Spreadsheet

/-- The text that a form stands for, if it stands for one. -/
def Form.ownText? : Form → Option String
  | blank => some ""
  | quoted content => some (String.ofList content)
  | nowhere text => some (String.ofList text)
  | _ => none

namespace Scope

variable {scope : Scope}

/-- A text that begins with an equals sign has the value of what stands behind it. -/
theorem evaluate_eq_expression {text : String} {cs : List Char} (h : text.toList = '=' :: cs) :
    scope.evaluate text = scope.expression cs := by
  rw [evaluate, h]
  rfl

/-- The value of an expression, given those of the texts that are evaluated on the
    way. -/
def valueFrom (scope : Scope) (value? : List Char → Option Value) (cs : List Char) :
    Option Value :=
  match Form.ofTrimmed (Text.trim cs) with
  | .blank => some (.text "")
  | .quoted content => some (.text (String.ofList content))
  | .number n => some (.number n)
  | .cell name => some (scope.cells.valueAt name)
  | .range r => some (.range r)
  | .nowhere text => some (.text (String.ofList text))
  | .call name arguments =>
    match scope.functions.get? name with
    | none => some .nameError
    | some f => do
      let values ← (Call.arguments arguments).mapM value?
      pure (scope.call f values)
  | .arithmetic text pieces => do
    match ← scope.splice value? pieces with
    | .ok spliced => pure (Arithmetic.valueOf text spliced)
    | .error v => pure v

/-- Each level of evaluation takes the values of the parts from the next. -/
theorem value?_eq_valueFrom (scope : Scope) (depth : Nat) (cs : List Char) :
    scope.value? (depth + 1) cs = scope.valueFrom (scope.value? depth) cs := rfl

/-- How an expression comes to a value, if `value?` gives those of its parts. -/
inductive Yields (scope : Scope) (value? : List Char → Option Value) (cs : List Char) :
    Value → Prop where
  /-- It stands for a text. -/
  | text {s : String} (form : (Form.ofTrimmed (Text.trim cs)).ownText? = some s) :
    Yields scope value? cs (.text s)
  | number {n : Number} (form : Form.ofTrimmed (Text.trim cs) = .number n) :
    Yields scope value? cs (.number n)
  /-- It is a cell, and shows what the cell shows. -/
  | cell {name : String} (form : Form.ofTrimmed (Text.trim cs) = .cell name) :
    Yields scope value? cs (scope.cells.valueAt name)
  | range {r : RangeReference} (form : Form.ofTrimmed (Text.trim cs) = .range r) :
    Yields scope value? cs (.range r)
  /-- It calls a function that does not exist. -/
  | unknown {name : String} {args : List Char}
    (form : Form.ofTrimmed (Text.trim cs) = .call name args)
    (get : scope.functions.get? name = none) : Yields scope value? cs .nameError
  /-- It calls a function, and all its arguments have values. -/
  | call {name : String} {args : List Char} {f : Function} {values : List Value}
    (form : Form.ofTrimmed (Text.trim cs) = .call name args)
    (get : scope.functions.get? name = some f)
    (arguments : (Call.arguments args).mapM value? = some values) :
    Yields scope value? cs (scope.call f values)
  /-- It is arithmetic without errors among the values that are spliced in. -/
  | arithmetic {text : List Char} {pieces : List Piece} {spliced : List Char}
    (form : Form.ofTrimmed (Text.trim cs) = .arithmetic text pieces)
    (splice : scope.splice value? pieces = some (.ok spliced)) :
    Yields scope value? cs (Arithmetic.valueOf text spliced)
  /-- It is arithmetic in which an error is spliced in. -/
  | error {text : List Char} {pieces : List Piece} {v : Value}
    (form : Form.ofTrimmed (Text.trim cs) = .arithmetic text pieces)
    (splice : scope.splice value? pieces = some (.error v)) : Yields scope value? cs v

/-- Each of these ways leads to the value. -/
theorem Yields.valueFrom_eq {value? : List Char → Option Value} {cs : List Char} {v : Value}
    (h : scope.Yields value? cs v) : scope.valueFrom value? cs = some v := by
  rw [valueFrom]
  cases h with
  | @text s form =>
      -- Three forms stand for a text.
      cases hform : Form.ofTrimmed (Text.trim cs) with
      | blank | quoted _ | nowhere _ =>
          rw [hform] at form
          rw [← Option.some.inj form]
      | number _ | cell _ | range _ | call _ _ | arithmetic _ _ =>
          rw [hform] at form
          cases form
  | number form => rw [form]
  | cell form => rw [form]
  | range form => rw [form]
  | unknown form get =>
      rw [form]
      simp only [get]
  | call form get arguments =>
      rw [form]
      simp only [get, arguments]
      rfl
  | arithmetic form splice =>
      rw [form]
      simp only [splice]
      rfl
  | error form splice =>
      rw [form]
      simp only [splice]
      rfl

/-- What leads to a value leads to it over other cells as well, and with other values for
    other parts, if the parts keep theirs, the cells that are handed on or spliced in show
    the same, and a call gives the same. -/
theorem Yields.mono {a b : Cells} {functions : Registry} {f g : List Char → Option Value}
    {cs : List Char} {v : Value} (h : Yields ⟨a, functions⟩ f cs v)
    (hpart : ∀ part ∈ (Form.ofTrimmed (Text.trim cs)).parts, ∀ w, f part = some w →
      g part = some w)
    (hcell : ∀ {name}, Form.ofTrimmed (Text.trim cs) = .cell name →
      a.valueAt name = b.valueAt name)
    (hpiece : ∀ {text pieces name}, Form.ofTrimmed (Text.trim cs) = .arithmetic text pieces →
      .cell name ∈ pieces → a.valueAt name = b.valueAt name)
    (hcall : ∀ {name args F values}, Form.ofTrimmed (Text.trim cs) = .call name args →
      functions.get? name = some F → (Call.arguments args).mapM f = some values →
        Scope.call ⟨a, functions⟩ F values = Scope.call ⟨b, functions⟩ F values) :
    Yields ⟨b, functions⟩ g cs v := by
  have hsplice : ∀ {text pieces result}, Form.ofTrimmed (Text.trim cs) = .arithmetic text pieces →
      splice ⟨a, functions⟩ f pieces = some result →
        splice ⟨b, functions⟩ g pieces = some result := by
    intro text pieces result hform hresult
    refine splice_mono hresult fun p hp => insertion_of_some ?_ ?_
    · exact fun name hname => hpiece hform (hname ▸ hp)
    · rw [hform] at hpart
      exact fun part hcall => hpart part (Form.mem_parts_of_piece (hcall ▸ hp))
  cases h with
  | text hform => exact .text hform
  | number hform => exact .number hform
  | cell hform =>
      rw [hcell hform]
      exact .cell hform
  | range hform => exact .range hform
  | unknown hform hget => exact .unknown hform hget
  | call hform hget harguments =>
      rw [hcall hform hget harguments]
      rw [hform] at hpart
      exact .call hform hget (mapM_of_some harguments hpart)
  | arithmetic hform hresult => exact .arithmetic hform (hsplice hform hresult)
  | error hform hresult => exact .error hform (hsplice hform hresult)

/-- The values of the parts come from the level below. -/
theorem Yields.value?_eq {depth : Nat} {cs : List Char} {v : Value}
    (h : scope.Yields (scope.value? depth) cs v) : scope.value? (depth + 1) cs = some v :=
  h.valueFrom_eq

/-- There are no other ways to a value. -/
theorem yields_of_valueFrom {value? : List Char → Option Value} {cs : List Char} {v : Value}
    (h : scope.valueFrom value? cs = some v) : scope.Yields value? cs v := by
  rw [valueFrom] at h
  split at h
  · rename_i hform
    rw [← Option.some.inj h]
    exact .text (by rw [hform]; rfl)
  · rename_i content hform
    rw [← Option.some.inj h]
    exact .text (by rw [hform]; rfl)
  · rename_i n hform
    rw [← Option.some.inj h]
    exact .number hform
  · rename_i name hform
    rw [← Option.some.inj h]
    exact .cell hform
  · rename_i r hform
    rw [← Option.some.inj h]
    exact .range hform
  · rename_i text hform
    rw [← Option.some.inj h]
    exact .text (by rw [hform]; rfl)
  · rename_i name args hform
    split at h
    · rename_i hget
      rw [← Option.some.inj h]
      exact .unknown hform hget
    · rename_i f hget
      rcases Option.bind_eq_some_iff.mp h with ⟨values, hvalues, hcall⟩
      rw [← Option.some.inj hcall]
      exact .call hform hget hvalues
  · rename_i text pieces hform
    rcases Option.bind_eq_some_iff.mp h with ⟨result, hsplice, hvalue⟩
    cases result with
    | ok spliced =>
        rw [← Option.some.inj hvalue]
        exact .arithmetic hform hsplice
    | error w =>
        rw [← Option.some.inj hvalue]
        exact .error hform hsplice

/-- What evaluation comes to is reached in one of these ways, with the values of the
    parts from the level below. -/
theorem yields_of_value? {depth : Nat} {cs : List Char} {v : Value}
    (h : scope.value? (depth + 1) cs = some v) : scope.Yields (scope.value? depth) cs v :=
  yields_of_valueFrom h

end Scope

end Spreadsheet
