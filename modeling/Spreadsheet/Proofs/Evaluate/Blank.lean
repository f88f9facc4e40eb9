import Spreadsheet.Proofs.Evaluate.Coverage
import Spreadsheet.Proofs.Number.Zero

/-!
# Functions That Ignore Blanks

Which builtin functions notice an empty text among their arguments.

A cell without anything in it, kept for its style, contributes an empty text to the
arguments of a function, and an absent cell contributes nothing. The functions that
take any number of arguments make no difference between the two: an empty text is no
number, it adds zero to a sum, it does not count as filled, and it adds nothing to a
text. The others tell their arguments by their places, and an empty text takes one
(`Builtin.isPositional`).

The sum is the one case that needs an argument. It adds a zero for every text, and
adding zero can change the sign of a zero, which is lost again when the sum is shown.

## Main definitions

* `Builtin.isPositional`: Whether arguments are told by their places.
* `Builtin.IsPositionalName`: The names of these functions.

## Theorems

* `Argument.numbers_filter`: Empty texts are not among the numbers.
* `Builtin.sumFrom_filter`: Empty texts do not show in a sum.
* `Builtin.ignoresBlanks`: All functions that are not positional ignore blanks.
-/

namespace Spreadsheet

/-- Doubles that are alike show the same value. -/
theorem Double.Alike.value_eq {x y : Float} (h : Double.Alike x y) :
    Value.ofFloat x = Value.ofFloat y := by
  rw [Value.ofFloat, Value.ofFloat, h.isFinite_eq, h.ofFloat_eq]

/-- Whether an argument is anything but an empty text. -/
def Argument.isMarked (v : Option Value) : Bool := v ≠ some (.text "")

namespace Argument

theorem isMarked_eq_false {v : Option Value} (h : isMarked v = false) : v = some (.text "") :=
  Decidable.not_not.mp (of_decide_eq_false h)

/-- Empty texts are not among the numbers. -/
theorem numbers_filter (arguments : List (Option Value)) :
    numbers (arguments.filter isMarked) = numbers arguments := by
  induction arguments with
  | nil => rfl
  | cons v arguments ih =>
      -- One argument more is one number more, or none.
      have hcons : ∀ arguments, numbers (v :: arguments)
          = (number? v).bind fun x => (numbers arguments).map fun xs =>
              (x.filter fun x => !x.isNaN).toList ++ xs := by
        intro arguments
        rw [numbers, numbers, List.mapM_cons]
        cases number? v with
        | error e => rfl
        | ok x =>
            cases arguments.mapM number? with
            | error e => rfl
            | ok xs =>
                show Except.ok ((x :: xs).filterMap _) = Except.ok _
                rw [List.filterMap_cons]
                cases x.filter fun x => !x.isNaN <;> rfl
      cases hv : isMarked v with
      | true => rw [List.filter_cons_of_pos hv, hcons, hcons, ih]
      | false =>
          rw [List.filter_cons_of_neg (by rw [hv]; exact Bool.false_ne_true), ih, hcons,
            isMarked_eq_false hv]
          cases numbers arguments <;> rfl

end Argument

namespace Builtin

/-- Whether the function tells its arguments by their places. -/
def isPositional : Builtin → Bool
  | choose | upper | lower | round | abs | sqrt | power => true
  | sum | average | min | max | count | counta | concat => false

/-- The names of the functions that tell their arguments by their places. -/
def IsPositionalName (name : String) : Prop :=
  ∃ f, ofName? name = some f ∧ f.isPositional = true

/-- The value shown for a sum that was begun. -/
def sumFrom (start : Float) (arguments : List (Option Value)) : Value :=
  match arguments.mapM (Argument.numberOr 0) with
  | .ok xs => .ofFloat (xs.foldl (· + ·) start)
  | .error _ => .failure

theorem sumFrom_cons (start : Float) (v : Option Value) (arguments : List (Option Value)) :
    sumFrom start (v :: arguments)
      = match Argument.numberOr 0 v with
        | .ok x => sumFrom (start + x) arguments
        | .error _ => .failure := by
  rw [sumFrom, List.mapM_cons]
  cases Argument.numberOr 0 v with
  | error e => rfl
  | ok x =>
      show (match (arguments.mapM (Argument.numberOr 0)).bind fun xs => .ok (x :: xs) with
        | .ok xs => Value.ofFloat (xs.foldl (· + ·) start)
        | .error _ => .failure) = sumFrom (start + x) arguments
      rw [sumFrom]
      cases arguments.mapM (Argument.numberOr 0) with
      | error e => rfl
      | ok xs => rfl

/-- The value of a sum. The whole number zero, without arguments, is no exception. -/
theorem outcome_sum (arguments : List (Option Value)) :
    Function.outcome sum.apply arguments = sumFrom 0 arguments := by
  rw [sumFrom]
  cases hxs : arguments.mapM (Argument.numberOr 0) with
  | error e =>
      have hsum : sumOf arguments = .error e := by rw [sumOf, hxs]; rfl
      rw [Function.outcome, apply, hsum]
      rfl
  | ok xs =>
      have hsum : sumOf arguments = .ok (if xs.isEmpty then .whole 0 else .float (total xs)) := by
        rw [sumOf, hxs]
        rfl
      rw [Function.outcome, apply, hsum]
      cases xs with
      -- The double zero shows as the whole number.
      | nil => decide +kernel
      | cons x xs => rfl

/-- Empty texts do not show in a sum. -/
theorem sumFrom_filter {start start' : Float} (h : Double.Alike start start')
    (arguments : List (Option Value)) :
    sumFrom start arguments = sumFrom start' (arguments.filter Argument.isMarked) := by
  induction arguments generalizing start start' with
  | nil =>
      exact h.value_eq
  | cons v arguments ih =>
      cases hv : Argument.isMarked v with
      | true =>
          rw [List.filter_cons_of_pos hv, sumFrom_cons, sumFrom_cons]
          cases Argument.numberOr 0 v with
          | error e => rfl
          | ok x => exact ih (h.add_right x)
      | false =>
          -- An empty text adds a zero.
          rw [List.filter_cons_of_neg (by rw [hv]; exact Bool.false_ne_true), sumFrom_cons,
            Argument.isMarked_eq_false hv]
          exact ih ((Double.alike_add_zero start Double.isZero_zero).trans h)

/-- Empty texts add nothing to a text. -/
theorem join_filter (arguments : List (Option Value)) :
    String.join ((arguments.filter Argument.isMarked).map Value.displayOption)
      = String.join (arguments.map Value.displayOption) := by
  rw [String.join, String.join, List.foldl_map, List.foldl_map]
  -- The induction needs any text in front, not only the empty one.
  generalize "" = front
  induction arguments generalizing front with
  | nil => rfl
  | cons v arguments ih =>
      cases hv : Argument.isMarked v with
      | true =>
          rw [List.filter_cons_of_pos hv, List.foldl_cons, List.foldl_cons]
          exact ih _
      | false =>
          rw [List.filter_cons_of_neg (by rw [hv]; exact Bool.false_ne_true), ih, List.foldl_cons,
            Argument.isMarked_eq_false hv]
          exact congrArg (List.foldl _ · arguments) String.append_empty.symm

/-- Empty texts do not count as filled. -/
theorem filter_isVoid (arguments : List (Option Value)) :
    (arguments.filter Argument.isMarked).filter (fun v => !Argument.isVoid v)
      = arguments.filter fun v => !Argument.isVoid v := by
  rw [List.filter_filter]
  refine List.filter_congr fun v _ => ?_
  cases hv : Argument.isMarked v with
  | true => exact Bool.and_true _
  | false =>
      rw [Argument.isMarked_eq_false hv]
      rfl

/-- The functions that do not tell their arguments by their places ignore blanks. -/
theorem ignoresBlanks {f : Builtin} (h : f.isPositional = false) :
    Function.IgnoresBlanks f.apply := by
  intro arguments
  show Function.outcome f.apply arguments
    = Function.outcome f.apply (arguments.filter Argument.isMarked)
  cases f with
  | sum => rw [outcome_sum, outcome_sum, sumFrom_filter (.refl 0)]
  | average => rw [Function.outcome, Function.outcome, apply, apply, Argument.numbers_filter]
  | min => rw [Function.outcome, Function.outcome, apply, apply, Argument.numbers_filter]
  | max => rw [Function.outcome, Function.outcome, apply, apply, Argument.numbers_filter]
  | count => rw [Function.outcome, Function.outcome, apply, apply, Argument.numbers_filter]
  | counta => rw [Function.outcome, Function.outcome, apply, apply, filter_isVoid]
  | concat => rw [Function.outcome, Function.outcome, apply, apply, join_filter]
  | _ => cases h

/-- Different functions have different names. -/
theorem find?_name (f : Builtin) : (all.find? fun g => g.name == f.name) = some f := by
  cases f <;> decide

end Builtin

/-- A function that does not ignore blanks has the name of a positional one. -/
theorem Registry.ignoresBlanks_builtins {name : String} {f : Function}
    (hf : builtins.get? name = some f) (hname : ¬ Builtin.IsPositionalName name) :
    f.IgnoresBlanks := by
  rcases List.mem_map.mp (OrderedMap.mem_of_get?_ofList hf) with ⟨b, _, heq⟩
  rcases Prod.mk.inj heq with ⟨hupper, rfl⟩
  refine Builtin.ignoresBlanks ?_
  cases hb : b.isPositional with
  | false => rfl
  | true =>
      refine absurd ⟨b, ?_, hb⟩ hname
      rw [Builtin.ofName?, ← hupper]
      exact Builtin.find?_name b

end Spreadsheet
