import Spreadsheet.Proofs.Evaluate.Normal
import Spreadsheet.Proofs.Recompute.Pass

/-!
# Every Cell Has a Value

After a recomputation no cell is without a computed value.

This is so for all formulas, also for those that the graph misunderstands: a formula
is in the order or it is blocked, and in both cases its cell is written to. What is
written is a normal value as long as the cells hold normal values before, and
nothing that is written is a literal, so the literals keep the values that they got
at the start (`Cells.Filling`). At the end the cells are settled: each has a
normal value, and the literals have their own.

Nothing is said here about which value a formula gets. That takes covered formulas.

## Main definitions

* `Cells.AreNormal`: No cell has a whole double as its value.
* `Cells.IsSettled`: Every cell has a normal value, and the literals their own.
* `Cells.Filling`: The invariant of the pass.

## Theorems

* `Filling.setComputed`: One more formula cell gets a value.
* `isSettled_recompute`: After a recomputation the cells are settled.
-/

namespace Spreadsheet

namespace Cells

/-- No cell has a whole double as its computed value. -/
def AreNormal (cells : Cells) : Prop := ∀ id v, cells.computedAt id = some v → v.IsNormal

/-- Every cell has a normal value, and the literals have their own. -/
structure IsSettled (cells : Cells) : Prop where
  /-- No value is a whole double. -/
  normal : cells.AreNormal
  /-- There is a value in every cell. -/
  filled : ∀ id c, cells.get? id = some c → ∃ v, c.computed = some v
  /-- Literals have the values that they spell. -/
  literal : ∀ id c, cells.get? id = some c → c.isFormula = false →
    c.computed = some (.ofLiteral c.value)

/-- What is known after some formula cells, `done`, were written to, with the cells as
    they are in `current`. -/
structure Filling (cells : Cells) (done : List String) (current : Cells) : Prop where
  /-- What was entered is still there. -/
  entry : ∀ id, (current.get? id).map Cell.entry = (cells.get? id).map Cell.entry
  /-- Literals have their values. -/
  literal : ∀ id c, current.get? id = some c → c.isFormula = false →
    c.computed = some (.ofLiteral c.value)
  /-- No value is a whole double. -/
  normal : current.AreNormal
  /-- The formula cells that were written to have values. -/
  filled : ∀ id ∈ done, ∃ v, current.computedAt id = some v

variable {functions : Registry} {cells current : Cells} {done : List String} {id : String}

/-- Cells with normal values show normal values, also where nothing was computed. -/
theorem AreNormal.valueAt (h : cells.AreNormal) (id : String) : (cells.valueAt id).IsNormal := by
  rw [Cells.valueAt]
  cases hget : cells.get? id with
  | none => exact Value.isNormal_text ""
  | some c =>
      rw [Option.map_some, Option.getD_some, Cell.currentValue]
      cases hcomputed : c.computed with
      | some v => exact h id v (by rw [computedAt, hget, Option.bind_some, hcomputed])
      | none =>
          -- A formula without a value shows nothing, and a literal shows itself.
          by_cases hformula : c.isFormula = true
          · rw [if_pos hformula]
            exact Value.isNormal_text ""
          · rw [if_neg hformula]
            exact Value.isNormal_ofLiteral c.value

theorem AreNormal.setComputed (h : cells.AreNormal) (id : String) {v : Value} (hv : v.IsNormal) :
    (cells.setComputed id v).AreNormal := by
  intro id' w hw
  by_cases hid : id' = id
  · rw [hid, computedAt, get?_setComputed_self] at hw
    rcases Option.bind_eq_some_iff.mp hw with ⟨c, hc, hcomputed⟩
    rcases Option.map_eq_some_iff.mp hc with ⟨_, _, rfl⟩
    rw [← Option.some.inj hcomputed]
    exact hv
  · rw [computedAt_setComputed_of_ne cells v hid] at hw
    exact h id' w hw

/-- At the start the literals have their values, which are normal. -/
theorem filling_resolveLiterals (h : cells.AreNormal) : Filling cells [] cells.resolveLiterals where
  entry := (progress_resolveLiterals .builtins cells).entry
  literal := (progress_resolveLiterals .builtins cells).literal
  normal := fun id v hv => by
    rw [computedAt, resolveLiterals, OrderedMap.get?_mapValues] at hv
    rcases Option.bind_eq_some_iff.mp hv with ⟨c, hc, hcomputed⟩
    rcases Option.map_eq_some_iff.mp hc with ⟨c', hget, rfl⟩
    by_cases hformula : c'.isFormula = true
    · rw [if_pos hformula] at hcomputed
      exact h id v (by rw [computedAt, hget, Option.bind_some, hcomputed])
    · rw [if_neg hformula] at hcomputed
      rw [← Option.some.inj hcomputed]
      exact Value.isNormal_ofLiteral _
  filled := fun id hid => by cases hid

namespace Filling

/-- One more formula cell gets a value. -/
theorem setComputed (h : Filling cells done current)
    (hkey : id ∈ (DependencyGraph.ofCells cells).formulas.keys) {v : Value} (hv : v.IsNormal) :
    Filling cells (done ++ [id]) (current.setComputed id v) where
  entry := fun id' => by rw [entry_setComputed, h.entry]
  literal := literal_setComputed h.entry h.literal hkey v
  normal := h.normal.setComputed id hv
  filled := by
    rcases exists_of_mem_keys h.entry hkey with ⟨c, _, hc, _⟩
    exact computedAt_setComputed_append (P := fun _ o => ∃ v, o = some v) h.filled hc ⟨v, rfl⟩

end Filling

/-- After the pass every formula, in the order or blocked, was written to. -/
theorem filling_recompute (functions : Registry) (h : cells.AreNormal) :
    Filling cells ((DependencyGraph.ofCells cells).order ++ (DependencyGraph.ofCells cells).blocked)
      (cells.recompute functions) := by
  refine recompute_induction (filling_resolveLiterals h) ?_ ?_
  · intro done id rest current formula _ hformula hfilling
    exact hfilling.setComputed ((OrderedMap.mem_keys_iff _).mpr ⟨formula, hformula⟩)
      (Scope.isNormal_evaluate hfilling.normal.valueAt formula)
  · intro done id current hid hfilling
    exact hfilling.setComputed (DependencyGraph.mem_blocked.mp hid).1
      (Value.isNormal_of_isError rfl)

/-- After a recomputation the cells are settled. -/
theorem isSettled_recompute (functions : Registry) (h : cells.AreNormal) :
    (cells.recompute functions).IsSettled := by
  have hfilling := filling_recompute functions h
  refine ⟨hfilling.normal, fun id c hget => ?_, hfilling.literal⟩
  -- A formula was written to during the pass, and anything else is a literal.
  by_cases hkey : id ∈ (DependencyGraph.ofCells cells).formulas.keys
  · rcases hfilling.filled id (mem_order_append_blocked hkey) with ⟨v, hv⟩
    rw [computedAt, hget] at hv
    exact ⟨v, hv⟩
  · exact ⟨_, hfilling.literal id c hget (isFormula_eq_false hfilling.entry hkey hget)⟩

end Cells

end Spreadsheet
