import Spreadsheet.Proofs.Evaluate.Errors
import Spreadsheet.Proofs.Formula.Length
import Spreadsheet.Proofs.Number.Range
import Spreadsheet.Proofs.Recompute.Entries

/-!
# Numbers That Can Be Compared

The builtin functions never take a sheet beyond the doubles.

A whole number can be larger than every double, and then it cannot be compared with
another number. But where would it come from? What is typed in and what is computed
was a double before it became a whole number, and every other whole number counts
something: the arguments of a call. There are no more of these than characters in
the formula, or cells in the sheet for each of them. So the bound on the numbers is
a bound on the memory, and one that no machine comes near (`Cells.IsSmall`).

The argument goes down an expression by its form, and along the order of the
dependency graph from one formula to the next. Functions that do not keep to the
doubles are excluded by `Registry.KeepsComparable`, since a caller can register
others than the builtin ones.

## Main definitions

* `Value.IsComparable`, `Cells.AreComparable`: No number is beyond the doubles.
* `Registry.KeepsComparable`: Functions that give no such number if they are given
  none, unless their arguments are too many.
* `Cells.IsSmall`: There are less than `2 ^ 64` cells, and characters in a formula.

## Theorems

* `Registry.keepsComparable_builtins`: The builtin functions are like that.
* `Scope.isComparable_of_value?`: Expressions come to no number beyond the doubles.
* `Cells.areComparable_recompute`: Neither do recomputations.
-/

namespace Spreadsheet

namespace Value

/-- A value is no number that is beyond the doubles. -/
def IsComparable : Value → Prop
  | number n => n.toFloat?.isSome = true
  | _ => True

instance (v : Value) : Decidable v.IsComparable :=
  match v with
  | number n => inferInstanceAs (Decidable (n.toFloat?.isSome = true))
  | text _ => isTrue trivial
  | bool _ => isTrue trivial
  | error _ => isTrue trivial
  | range _ => isTrue trivial

theorem isComparable_of_isError {v : Value} (h : v.isError = true) : v.IsComparable := by
  cases v with
  | error code => trivial
  | _ => cases h

theorem isComparable_whole {n : Int} (h : n.natAbs ≤ Double.greatest) :
    (number (.whole n)).IsComparable := Double.isSome_ofInt? h

/-- A number that was a double can be compared. -/
theorem isComparable_number (x : Float) : (number (.ofFloat x)).IsComparable := by
  unfold Number.ofFloat
  split
  · rename_i n hwhole
    exact Double.isSome_ofInt?_of_whole? hwhole
  · rfl

theorem isComparable_ofFloat (x : Float) : (ofFloat x).IsComparable := by
  rw [ofFloat]
  split
  · exact isComparable_number x
  · trivial

theorem isComparable_ofLiteral (s : String) : (ofLiteral s).IsComparable := by
  rw [ofLiteral]
  split
  · rename_i n hn
    rcases Option.map_eq_some_iff.mp hn with ⟨x, _, rfl⟩
    exact isComparable_number x
  · trivial

theorem isComparable_valueOf (text cs : List Char) : (Arithmetic.valueOf text cs).IsComparable := by
  rw [Arithmetic.valueOf]
  split
  · trivial
  · split
    · exact isComparable_ofFloat _
    · trivial

theorem isComparable_ofResult {result : Option Value} (h : ∀ v ∈ result, v.IsComparable) :
    (ofResult result).IsComparable := by
  unfold ofResult
  split
  · trivial
  · rename_i b
    refine isComparable_whole (le_trans ?_ Double.greatest_pos)
    cases b <;> decide
  · exact isComparable_ofFloat _
  · trivial
  · exact h _ rfl

end Value

namespace Builtin

/-- A builtin function gives a number that can be compared, if it is given only such
    numbers and not too many arguments. -/
theorem isComparable_of_apply {f : Builtin} {args : List (Option Value)} {v : Value}
    (h : f.apply args = .ok (some v)) (hargs : ∀ w, some w ∈ args → w.IsComparable)
    (hfew : args.length ≤ Double.greatest) : v.IsComparable := by
  cases gives_of_apply h with
  | double _ => rfl
  | count hle => exact Value.isComparable_whole (hle.trans hfew)
  | text _ => trivial
  | argument hmem => exact hargs v hmem

end Builtin

namespace Registry

/-- Functions that give no number beyond the doubles if they are given none, as long
    as their arguments can be counted within the doubles. -/
def KeepsComparable (registry : Registry) : Prop :=
  ∀ name f args v, registry.get? name = some f → f args = .ok (some v) →
    (∀ w, some w ∈ args → w.IsComparable) → args.length ≤ Double.greatest → v.IsComparable

/-- The builtin functions keep to the doubles. -/
theorem keepsComparable_builtins : KeepsComparable builtins := by
  intro name f args v hf hv hargs hfew
  rcases List.mem_map.mp (OrderedMap.mem_of_get?_ofList hf) with ⟨b, _, heq⟩
  rw [← (Prod.mk.inj heq).2] at hv
  exact Builtin.isComparable_of_apply hv hargs hfew

end Registry

/-- A block has no more values than there are cells. -/
theorem Cells.length_valuesIn_le (cells : Cells) {block : Block} (hgrid : block.OnGrid) :
    (cells.valuesIn block).length ≤ cells.keys.length := by
  -- Both ways of looking up give the same list, and one of them goes through the cells.
  have hcell : cells.valuesIn block = cells.valuesByCell block :=
    (valuesIn_eq cells hgrid).trans (valuesByCell_eq cells hgrid).symm
  have hreachable : cells.reachable.length ≤ cells.keys.length :=
    (List.length_filter_le _ _).trans (List.length_filterMap_le _ _)
  rw [hcell, valuesByCell, List.length_map, (List.mergeSort_perm _ _).length_eq]
  exact (List.length_filter_le _ _).trans hreachable

namespace Scope

variable {scope : Scope}

/-- How many values a function receives: an argument stands for one value, or for no
    more than there are cells. -/
theorem length_contributions_le {values : List Value}
    (hgrid : ∀ r, Value.range r ∈ values → r.block.OnGrid) :
    (values.flatMap scope.contribution).length
      ≤ values.length * (scope.cells.keys.length + 1) := by
  have hcontribution : ∀ v ∈ values,
      (scope.contribution v).length ≤ scope.cells.keys.length + 1 := by
    intro v hv
    cases v with
    | range r => exact (scope.cells.length_valuesIn_le (hgrid r hv)).trans (Nat.le_succ _)
    | _ => exact Nat.le_add_left _ _
  have hsum := List.sum_le_card_nsmul (values.map fun v => (scope.contribution v).length)
    (scope.cells.keys.length + 1) <| by
      intro n hn
      rcases List.mem_map.mp hn with ⟨v, hv, rfl⟩
      exact hcontribution v hv
  rwa [List.length_flatMap, ← smul_eq_mul, ← List.length_map]

/-- A call comes to no number beyond the doubles, if the function receives none and
    not too many values. -/
theorem isComparable_call (hkeeps : scope.functions.KeepsComparable) {name : String} {f : Function}
    (hf : scope.functions.get? name = some f) {values : List Value}
    (hvalues : ∀ v ∈ values.flatMap scope.contribution, v.IsComparable)
    (hfew : (values.flatMap scope.contribution).length ≤ Double.greatest) :
    (scope.call f values).IsComparable := by
  rw [call]
  split
  · rename_i result hresult
    refine Value.isComparable_ofResult fun v hv => ?_
    rw [Option.mem_def.mp hv] at hresult
    refine hkeeps name f _ v hf hresult (fun w hw => ?_) (by rwa [List.length_map])
    rcases List.mem_map.mp hw with ⟨w', hw', heq⟩
    rw [← Option.some.inj heq]
    exact hvalues w' hw'
  · trivial

/-- An expression comes to no number beyond the doubles, if no cell that it consults
    shows one. -/
theorem isComparable_of_value? (hkeeps : scope.functions.KeepsComparable) {depth : Nat}
    {cs : List Char} {v : Value} (hplain : ∀ id, Consults cs id → (scope.cells.valueAt id).IsPlain)
    (hcells : ∀ id, Consults cs id → (scope.cells.valueAt id).IsComparable)
    (hsize : (cs.length + 1) * (scope.cells.keys.length + 1) ≤ Double.greatest)
    (h : scope.value? depth cs = some v) : v.IsComparable := by
  induction depth generalizing cs v with
  | zero => cases h
  | succ depth ih =>
      -- A part is shorter than the whole, so the bound is one for the part as well.
      have hpart : ∀ part ∈ (Form.ofTrimmed (Text.trim cs)).parts, ∀ w,
          scope.value? depth part = some w → w.IsComparable := by
        intro part hmem w hvalue
        have hlength := (Form.length_lt_of_mem_parts hmem).le.trans (Text.length_trim_le cs)
        exact ih (fun id hid => hplain id (.part hmem hid))
          (fun id hid => hcells id (.part hmem hid))
          ((Nat.mul_le_mul_right _ (Nat.succ_le_succ hlength)).trans hsize) hvalue
      cases yields_of_value? h with
      | text _ | range _ | unknown _ _ => trivial
      | number hform =>
          rcases Form.eq_of_number hform with ⟨x, rfl⟩
          exact Value.isComparable_number x
      | cell hform => exact hcells _ (.cell hform)
      | @call name args f values hform hf harguments =>
          refine isComparable_call hkeeps hf (fun w hw => ?_) ?_
          · rcases exists_of_mem_contributions hplain hform harguments hw with
              ⟨id, hid, rfl⟩ | ⟨arg, harg, hvalue⟩
            · exact hcells id hid
            · exact hpart arg (by rw [hform]; exact Form.mem_parts_of_call harg) w hvalue
          · -- There are no more arguments than characters, and each is bounded by the cells.
            have hgrid : ∀ r, Value.range r ∈ values → r.block.OnGrid := by
              intro r hr
              rcases exists_argument_of_range hplain hform harguments hr with ⟨_, _, hrange⟩
              exact Form.onGrid_of_range hrange
            have hlength : args.length ≤ cs.length :=
              (Call.length_lt_of_whole? (Form.eq_of_call hform)).le.trans (Text.length_trim_le cs)
            calc (values.flatMap scope.contribution).length
                ≤ values.length * (scope.cells.keys.length + 1) := length_contributions_le hgrid
              _ = (Call.arguments args).length * (scope.cells.keys.length + 1) := by
                  rw [(mapM_eq_some_iff.mp harguments).length_eq]
              _ ≤ (cs.length + 1) * (scope.cells.keys.length + 1) :=
                  Nat.mul_le_mul_right _
                    ((Call.length_arguments_le args).trans (Nat.succ_le_succ hlength))
              _ ≤ Double.greatest := hsize
      | arithmetic _ _ => exact Value.isComparable_valueOf _ _
      | error _ hsplice => exact Value.isComparable_of_isError (exists_of_splice hsplice).1

/-- A formula comes to no number beyond the doubles, if no cell that it consults
    shows one. -/
theorem isComparable_evaluate (hkeeps : scope.functions.KeepsComparable) {text : String}
    (hplain : ∀ cs, text.toList = '=' :: cs → ∀ id, Consults cs id →
      (scope.cells.valueAt id).IsPlain)
    (hcells : ∀ cs, text.toList = '=' :: cs → ∀ id, Consults cs id →
      (scope.cells.valueAt id).IsComparable)
    (hsize : (text.length + 1) * (scope.cells.keys.length + 1) ≤ Double.greatest) :
    (scope.evaluate text).IsComparable := by
  rcases scope.evaluate_cases text with herror | ⟨s, hs⟩ | ⟨cs, hcs, hvalue, _⟩
  · rw [herror]
    trivial
  · rw [hs]
    trivial
  · have hlength : cs.length ≤ text.length := by
      rw [← String.length_toList, hcs, List.length_cons]
      exact Nat.le_succ _
    exact isComparable_of_value? hkeeps (hplain cs hcs) (hcells cs hcs)
      ((Nat.mul_le_mul_right _ (Nat.succ_le_succ hlength)).trans hsize) hvalue

end Scope

namespace Cells

variable {functions : Registry} {cells : Cells}

/-- No computed value is a number beyond the doubles. -/
def AreComparable (cells : Cells) : Prop :=
  ∀ id v, cells.computedAt id = some v → v.IsComparable

instance (cells : Cells) : Decidable cells.AreComparable :=
  decidable_of_iff (∀ e ∈ cells.entries, ∀ v ∈ e.2.computed, v.IsComparable) <| by
    refine ⟨fun h id v hv => ?_, fun h e he v hv => h e.1 v ?_⟩
    · rcases Option.bind_eq_some_iff.mp hv with ⟨c, hc, hcomputed⟩
      exact h (id, c) ((OrderedMap.get?_eq_some_iff cells).mp hc) v hcomputed
    · rw [Cells.computedAt, (OrderedMap.get?_eq_some_iff cells).mpr he]
      exact hv

/-- The cells fit into a memory that is addressed by machine words. -/
structure IsSmall (cells : Cells) : Prop where
  /-- There are not too many cells. -/
  keys : cells.keys.length < 2 ^ 64
  /-- No formula is too long. -/
  formula : ∀ id c formula, cells.get? id = some c → c.formula? = some formula →
    formula.length < 2 ^ 64

instance (cells : Cells) : Decidable cells.IsSmall :=
  decidable_of_iff (cells.keys.length < 2 ^ 64 ∧
      ∀ e ∈ cells.entries, ∀ formula ∈ e.2.formula?, formula.length < 2 ^ 64)
    ⟨fun h => ⟨h.1, fun id c formula hget hformula =>
        h.2 (id, c) ((OrderedMap.get?_eq_some_iff _).mp hget) formula hformula⟩,
      fun h => ⟨h.keys, fun e he formula hformula =>
        h.formula e.1 e.2 formula ((OrderedMap.get?_eq_some_iff _).mpr he) hformula⟩⟩

/-- What a call of a formula can be given is far from the greatest double. -/
theorem IsSmall.mul_le (h : cells.IsSmall) {id formula : String}
    (hformula : (DependencyGraph.ofCells cells).formulas.get? id = some formula) :
    (formula.length + 1) * (cells.keys.length + 1) ≤ Double.greatest := by
  rw [DependencyGraph.formulas_ofCells] at hformula
  rcases Option.bind_eq_some_iff.mp hformula with ⟨c, hc, hformula⟩
  calc (formula.length + 1) * (cells.keys.length + 1)
      ≤ 2 ^ 64 * 2 ^ 64 := Nat.mul_le_mul (h.formula id c formula hc hformula) h.keys
    _ ≤ 2 ^ 971 := by
        rw [← Nat.pow_add]
        exact Nat.pow_le_pow_right (by decide) (by decide)
    _ ≤ Double.greatest := Nat.le_mul_of_pos_left _ (by decide)

/-- Formulas in the order come to no number beyond the doubles. -/
theorem isComparable_of_mem_order (hkeeps : functions.KeepsComparable) (hcovered : cells.Covered)
    (hsmall : cells.IsSmall) :
    ∀ id ∈ (DependencyGraph.ofCells cells).order, ∀ v,
      (cells.recompute functions).computedAt id = some v → v.IsComparable :=
  order_value_induction hcovered Value.isComparable_ofLiteral
    fun {id formula} hformula hplain hcells => by
      refine Scope.isComparable_evaluate hkeeps hplain hcells ?_
      rw [(sameEntries_recompute functions cells).keys]
      exact hsmall.mul_le hformula

/-- What is no formula cell shows its literal, which is no number beyond the doubles. -/
theorem isComparable_of_not_mem_keys (hcovered : cells.Covered) {id : String}
    (hkey : id ∉ (DependencyGraph.ofCells cells).formulas.keys) {v : Value}
    (hv : (cells.recompute functions).computedAt id = some v) : v.IsComparable := by
  rw [← computedAt_recompute functions hcovered,
    (progress_recompute functions hcovered).get?_of_not_mem hkey] at hv
  rcases Option.map_eq_some_iff.mp hv with ⟨c, _, rfl⟩
  exact Value.isComparable_ofLiteral c.value

/-- A recomputation comes to no number beyond the doubles. -/
theorem areComparable_recompute (hkeeps : functions.KeepsComparable) (hcovered : cells.Covered)
    (hsmall : cells.IsSmall) : (cells.recompute functions).AreComparable := by
  intro id v hv
  by_cases hkey : id ∈ (DependencyGraph.ofCells cells).formulas.keys
  · by_cases horder : id ∈ (DependencyGraph.ofCells cells).order
    · exact isComparable_of_mem_order hkeeps hcovered hsmall id horder v hv
    · rw [computedAt_of_blocked functions hcovered (DependencyGraph.mem_blocked.mpr ⟨hkey, horder⟩),
        Option.some.injEq] at hv
      rw [← hv]
      trivial
  · exact isComparable_of_not_mem_keys hcovered hkey hv

end Cells

end Spreadsheet
