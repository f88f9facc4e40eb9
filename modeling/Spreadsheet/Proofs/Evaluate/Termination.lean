import Spreadsheet.Proofs.Evaluate.Depth
import Spreadsheet.Proofs.Formula.Length
import Spreadsheet.Proofs.Formula.Pass

/-!
# Evaluation Ends

Evaluation comes to a value without any bound of its depth.

The bound in `Scope.value?` is one that the text of a formula brings along. Every part
of an expression is shorter than the expression without the blanks around it, so a
chain of expressions, each a part of the one before, has at most one more member than
the first one has characters. As many levels are enough for every expression, whatever
the cells hold and the functions do, and the equations of evaluation have exactly one
solution if they are read without a bound.

On each level the walk over the pieces of arithmetic ends as well, since each of its
passes moves forward.

## Main definitions

* `Formula.HasPart`: The next level of an expression.

## Theorems

* `Formula.length_le_of_isChain`: How long chains of parts are.
* `Formula.nestedWithin_of_length_lt`: How deep an expression can be nested.
* `Scope.existsUnique_value`: Evaluation without a bound.
* `Scope.evaluation_ends`: Recursion and loops of evaluation end, whatever is evaluated.
-/

namespace Spreadsheet

namespace Formula

/-- The second expression is evaluated on the way to the value of the first, one level
    below it. -/
def HasPart (cs part : List Char) : Prop := part ∈ (Form.ofTrimmed (Text.trim cs)).parts

variable {cs part : List Char}

theorem HasPart.length_lt (h : HasPart cs part) : part.length < cs.length :=
  (Form.length_lt_of_mem_parts h).trans_le (Text.length_trim_le cs)

/-- In a chain of expressions, each a part of the one before, there is at most one more
    than the first has characters. -/
theorem length_le_of_isChain {chain : List (List Char)} (h : List.IsChain HasPart (cs :: chain)) :
    (cs :: chain).length ≤ cs.length + 1 := by
  induction chain generalizing cs with
  | nil => exact Nat.succ_le_succ (Nat.zero_le _)
  | cons part chain ih =>
      rcases List.isChain_cons_cons.mp h with ⟨hpart, hchain⟩
      exact Nat.succ_le_succ ((ih hchain).trans hpart.length_lt)

/-- An expression is nested no deeper than it is long. -/
theorem nestedWithin_of_length_lt {depth : Nat} (h : cs.length < depth) :
    nestedWithin depth cs = true := by
  induction depth generalizing cs with
  | zero => cases h
  | succ depth ih =>
      refine List.all_eq_true.mpr fun part hpart => ih ?_
      exact (HasPart.length_lt hpart).trans_le (Nat.le_of_lt_succ h)

end Formula

namespace Scope

/-- One value is right for all bounds that exceed the length of an expression. -/
theorem exists_value? (scope : Scope) (cs : List Char) :
    ∃ v, ∀ depth, cs.length < depth → scope.value? depth cs = some v := by
  rcases exists_of_nestedWithin (Formula.nestedWithin_of_length_lt (Nat.lt_succ_self cs.length))
    with ⟨v, hv⟩
  exact ⟨v, fun depth hdepth => value?_of_le hv hdepth⟩

/-- If the equations of evaluation are read without a bound of the depth, they have one
    solution and no other. -/
theorem existsUnique_value (scope : Scope) : ∃! value : List Char → Value,
    ∀ cs, scope.valueFrom (fun part => some (value part)) cs = some (value cs) := by
  choose value hvalue using scope.exists_value?
  refine ⟨value, fun cs => ?_, fun other hother => funext fun cs => ?_⟩
  · rw [← hvalue cs (cs.length + 1) (Nat.lt_succ_self _), value?_eq_valueFrom]
    exact valueFrom_congr fun part hpart => (hvalue part _ (Formula.HasPart.length_lt hpart)).symm
  · induction hn : cs.length using Nat.strong_induction_on generalizing cs with
    | _ n ih =>
        have hlevel := hvalue cs (cs.length + 1) (Nat.lt_succ_self _)
        rw [value?_eq_valueFrom] at hlevel
        refine Option.some.inj ?_
        rw [← hother cs, ← hlevel]
        refine valueFrom_congr fun part hpart => ?_
        have hlt := Formula.HasPart.length_lt hpart
        rw [ih part.length (hn ▸ hlt) part rfl, hvalue part _ hlt]

/-- Evaluation ends for every expression, whatever the cells hold and the functions do.
    A level of evaluation asks for values of the parts only, and these are shorter than the
    expression without the blanks around it. The pieces of arithmetic are found in passes,
    and a pass that goes on has moved forward, and not past the end. So there are at most
    as many levels as characters and one more, and with room for these there is a value. -/
theorem evaluation_ends (scope : Scope) (cs : List Char) :
    (∀ depth, scope.value? (depth + 1) cs = scope.valueFrom (scope.value? depth) cs) ∧
    (∀ f g : List Char → Option Value,
      (∀ part ∈ (Form.ofTrimmed (Text.trim cs)).parts, f part = g part) →
        scope.valueFrom f cs = scope.valueFrom g cs) ∧
    (∀ part ∈ (Form.ofTrimmed (Text.trim cs)).parts, part.length < (Text.trim cs).length) ∧
    (∀ text pieces, Form.ofTrimmed (Text.trim cs) = .arithmetic text pieces →
      pieces = Piece.walk (Text.trim cs) 0) ∧
    (∀ pos pos', (Piece.pass (Text.trim cs) pos).next? = some pos' →
      pos < pos' ∧ pos' ≤ (Text.trim cs).length) ∧
    (∀ chain, List.IsChain Formula.HasPart (cs :: chain) →
      (cs :: chain).length ≤ cs.length + 1) ∧
    ∃ v, ∀ depth, cs.length < depth → scope.value? depth cs = some v := by
  refine ⟨fun depth => scope.value?_eq_valueFrom depth cs, fun f g => valueFrom_congr,
    fun part => Form.length_lt_of_mem_parts, fun text pieces hform => ?_,
    fun pos pos' => Piece.lt_of_next?, fun chain => Formula.length_le_of_isChain,
    scope.exists_value? cs⟩
  rw [Piece.walk_eq_scan]
  exact (Form.eq_of_arithmetic hform).2

end Scope

end Spreadsheet
