import Spreadsheet.Proofs.Evaluate.Substitution
import Spreadsheet.Proofs.Formula.Joined

/-!
# Calls of Functions

The value of a call comes from the values of its arguments.

A call is written as one text, and what its arguments are is found by going through
it. For arguments that can be joined (`Call.isArgument`) this gives back what was
written, so the call has the value that the function gives for what each argument
contributes by itself. That is the value that the argument has as a formula of its own,
or the cells present in a block if it is a range. Nothing else of an argument matters:
neither what stands next to it, nor how deep the call stands in another one.

## Main definitions

* `Scope.supplied`: What an argument contributes by itself.

## Theorems

* `Registry.get?_builtins`: A builtin function is called by its name.
* `Scope.value?_text_eq_map`, `Scope.value?_text`: The value of a call from the values of
  its arguments.
* `Scope.contribution_eq_supplied`: What an argument contributes inside a call.
* `Scope.supplied_of_range`: What a range contributes.
* `Scope.evaluate_text`: The value of a call from what its arguments contribute.
-/

namespace Spreadsheet

/-- No call has a range as its value. -/
theorem Function.isPlain_outcome (f : Function) (arguments : List (Option Value)) :
    (f.outcome arguments).IsPlain := by
  rw [Function.outcome]
  split
  · exact Value.isPlain_ofResult _
  · exact fun r h => by cases h

/-- A builtin function is called by its name. -/
theorem Registry.get?_builtins (b : Builtin) : builtins.get? b.name = some b.apply := by
  rw [get?, show Text.upper b.name = b.name by cases b <;> decide +kernel]
  cases b <;> rfl

namespace Scope

variable {scope : Scope} {name : List Char} {f : Function} {args : List (List Char)}

/-- What an argument contributes by itself: the values present in a block, if the
    argument comes to a range, and the value as a formula otherwise. -/
def supplied (scope : Scope) (arg : List Char) : List Value :=
  match scope.value? depthLimit arg with
  | some (.range r) => scope.cells.valuesIn r.block
  | _ => [scope.evaluate (String.ofList ('=' :: arg))]

/-- What an argument contributes inside a call, it contributes by itself. -/
theorem contribution_eq_supplied {arg : List Char} {v : Value}
    (h : scope.value? depthLimit arg = some v) : scope.contribution v = scope.supplied arg := by
  rw [supplied, h]
  cases v with
  | range r => rfl
  | text _ | number _ | bool _ | error _ =>
      rw [evaluate_formula, expression_of_value? h fun r hr => by cases hr]
      rfl

/-- A range contributes the cells of its block that are present, row by row. -/
theorem supplied_of_range {arg : List Char} {r : RangeReference}
    (h : Form.ofTrimmed (Text.trim arg) = .range r) :
    scope.supplied arg
      = r.block.ids.filterMap fun id => (scope.cells.get? id).map Cell.currentValue := by
  have hvalue : scope.value? depthLimit arg = some (.range r) := (Yields.range h).value?_eq
  rw [supplied, hvalue]
  exact Cells.valuesIn_eq _ (Form.onGrid_of_range h)

/-- What the values contribute, the arguments contribute. -/
theorem flatMap_of_mapM {value? : List Char → Option Value} {values : List Value}
    {g : Value → List Value} {h : List Char → List Value} (hvalues : args.mapM value? = some values)
    (hgh : ∀ a ∈ args, ∀ v, value? a = some v → g v = h a) : values.flatMap g = args.flatMap h := by
  rw [mapM_eq_some_iff] at hvalues
  induction hvalues with
  | nil => rfl
  | @cons a v args values hv _ ih =>
      rw [List.flatMap_cons, List.flatMap_cons, hgh a List.mem_cons_self v hv,
        ih fun b hb => hgh b (List.mem_cons_of_mem a hb)]

section

variable (hne : name ≠ []) (hname : ∀ c ∈ name, Column.isLetter c = true)
  (hargs : ∀ a ∈ args, Call.isArgument a = true ∧ Text.trim a = a)
  (hlast : args.getLast? ≠ some [])

include hne hname hargs hlast

/-- The parts of a call are the arguments that were joined. -/
theorem form_text :
    Form.ofTrimmed (Text.trim (Call.text name args))
        = .call (String.ofList name) (Call.join args) ∧
      Call.arguments (Call.join args) = args :=
  ⟨Form.ofTrimmed_of_whole? (Call.whole?_text hne hname fun a ha => (hargs a ha).1),
    Call.arguments_join (fun a ha => (hargs a ha).1) (fun a ha => (hargs a ha).2) hlast⟩

/-- A call has a value if all its arguments have one, a level further down. -/
theorem value?_text_eq_map (hf : scope.functions.get? (String.ofList name) = some f)
    (depth : Nat) :
    scope.value? (depth + 1) (Call.text name args)
      = (args.mapM (scope.value? depth)).map (scope.call f) := by
  rcases form_text hne hname hargs hlast with ⟨hform, harguments⟩
  rw [value?_eq_valueFrom, valueFrom, hform]
  simp only [hf, harguments]
  cases args.mapM (scope.value? depth) with
  | none => rfl
  | some values => rfl

/-- The value of a call from the values of its arguments. -/
theorem value?_text (hf : scope.functions.get? (String.ofList name) = some f) {depth : Nat}
    {values : List Value} (hvalues : args.mapM (scope.value? depth) = some values) :
    scope.value? (depth + 1) (Call.text name args) = some (scope.call f values) := by
  rw [value?_text_eq_map hne hname hargs hlast hf, hvalues, Option.map_some]

/-- A call has the value that the function gives for what its arguments contribute, one
    after the other. What an argument that is written as a range contributes are the
    cells of its block that are present. -/
theorem evaluate_text (hf : scope.functions.get? (String.ofList name) = some f)
    (hnested : Formula.nestedWithin depthLimit (Call.text name args) = true) :
    scope.evaluate (String.ofList ('=' :: Call.text name args))
        = f.outcome ((args.flatMap scope.supplied).map some) ∧
      ∀ a ∈ args, ∀ r, Form.ofTrimmed a = .range r → scope.supplied a
        = r.block.ids.filterMap fun id => (scope.cells.get? id).map Cell.currentValue := by
  rcases form_text hne hname hargs hlast with ⟨hform, harguments⟩
  refine ⟨?_, fun a ha r hr => supplied_of_range (by rwa [(hargs a ha).2])⟩
  -- The arguments have values one level further down.
  have hvalue : ∀ a ∈ args, ∃ v, scope.value? 399 a = some v := by
    intro a ha
    refine exists_of_nestedWithin (Formula.nestedWithin_part hnested ?_)
    rw [hform]
    exact Form.mem_parts_of_call (by rwa [harguments])
  rcases exists_mapM_of_forall hvalue with ⟨values, hvalues⟩
  have hcall := value?_text hne hname hargs hlast hf hvalues
  rw [call_eq_outcome, flatMap_of_mapM hvalues fun a _ v hv =>
    contribution_eq_supplied (value?_succ hv)] at hcall
  rw [evaluate_formula]
  exact expression_of_value? hcall (f.isPlain_outcome _)

end

/-- An argument with a comma and a parenthesis in its quotes, an empty one, a range and a
    call with two arguments. -/
theorem evaluate_text_nested :
    let scope : Scope := ⟨.ofList [("A1", { value := "x" }), ("B2", { value := "y" })], .builtins⟩
    let name := "CONCAT".toList
    let args := ["\"a,(\"".toList, [], "A1:B2".toList, "CONCAT(\"\\\",\",A1)".toList]
    (name ≠ [] ∧ ∀ c ∈ name, Column.isLetter c = true) ∧
      (∀ a ∈ args, Call.isArgument a = true ∧ Text.trim a = a) ∧ args.getLast? ≠ some [] ∧
      Formula.nestedWithin depthLimit (Call.text name args) = true ∧
      String.ofList ('=' :: Call.text name args)
        = "=CONCAT(\"a,(\",,A1:B2,CONCAT(\"\\\",\",A1))" ∧
      scope.evaluate (String.ofList ('=' :: Call.text name args))
        = Function.outcome Builtin.concat.apply ((args.flatMap scope.supplied).map some) := by
  intro scope name args
  have hname : name ≠ [] ∧ ∀ c ∈ name, Column.isLetter c = true :=
    ⟨by decide, List.all_eq_true.mp (by decide)⟩
  have hargs : ∀ a ∈ args, Call.isArgument a = true ∧ Text.trim a = a := by decide +kernel
  have hlast : args.getLast? ≠ some [] := by decide +kernel
  have hnested : Formula.nestedWithin depthLimit (Call.text name args) = true := by
    decide +kernel
  have hf : scope.functions.get? (String.ofList name) = some Builtin.concat.apply :=
    Registry.get?_builtins .concat
  exact ⟨hname, hargs, hlast, hnested, by decide +kernel,
    (evaluate_text hname.1 hname.2 hargs hlast hf hnested).1⟩

end Scope

end Spreadsheet
