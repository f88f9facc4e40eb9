import Spreadsheet.Proofs.Evaluate.Errors
import Spreadsheet.Proofs.Recompute.Pass

/-!
# The Result of Recomputation Is a Fixpoint

After a recomputation, evaluating a formula again gives the value that its cell
shows.

This holds for every formula that reaches no cycle, and the ones that do are
exactly those that show the error of a cycle. Half of this is the invariant of
the pass. The other half is that no formula in the order comes to the error of a
cycle by itself: along the order, no cell that a formula reads shows the error,
and functions that make up no errors cannot bring it in.

## Theorems

* `Cells.computedAt_ne_cycle`: Formulas in the order do not show a cycle.
* `Sheet.recompute_fixpoint`: What formula cells show after recomputation.
-/

namespace Spreadsheet

namespace Cells

variable {functions : Registry} {cells : Cells}

/-- Formulas in the order do not show a cycle. -/
theorem computedAt_ne_cycle (hkeeps : functions.KeepsErrors) (hcovered : cells.Covered) :
    ∀ id ∈ (DependencyGraph.ofCells cells).order,
      (cells.recompute functions).computedAt id ≠ some .cycle := by
  have hliteral : ∀ s, Value.ofLiteral s ≠ .cycle := by
    intro s
    rw [Value.ofLiteral]
    split <;> exact fun hcycle => by cases hcycle
  have hvalue : ∀ id ∈ (DependencyGraph.ofCells cells).order, ∀ v,
      (cells.recompute functions).computedAt id = some v → v ≠ .cycle := by
    refine order_value_induction hcovered hliteral fun {id formula} _ hplain hcells => ?_
    -- No formula comes to the error by itself.
    exact Scope.evaluate_ne_of_forall hkeeps rfl (by decide) (by decide) hplain hcells
  exact fun id hid hcycle => hvalue id hid .cycle hcycle rfl

end Cells

namespace Sheet

/-- After a recomputation, a formula cell shows the error of a cycle exactly if it
    reads its way to one, and otherwise the value that its formula has now. -/
theorem recompute_fixpoint {sheet : Sheet} (hregular : sheet.IsRegular) {id formula : String}
    {c : Cell} (hget : sheet.cells.get? id = some c) (hformula : c.formula? = some formula) :
    ((sheet.recompute .builtins).cells.computedAt id = some .cycle ↔
      (DependencyGraph.ofCells sheet.cells).ReachesCycle id) ∧
    (¬ (DependencyGraph.ofCells sheet.cells).ReachesCycle id →
      (sheet.recompute .builtins).cells.computedAt id
        = some ((sheet.recompute .builtins).evaluate .builtins formula)) := by
  have hgraph : (DependencyGraph.ofCells sheet.cells).formulas.get? id = some formula := by
    rw [DependencyGraph.formulas_ofCells, hget]
    exact hformula
  have hkey := (OrderedMap.mem_keys_iff _).mpr ⟨formula, hgraph⟩
  have horder := DependencyGraph.mem_order_of_not_reachesCycle hkey
  -- Formulas in the order have their values, and all others the error of a cycle.
  refine ⟨⟨fun hcycle => ?_, fun hcycle => ?_⟩, fun hcycle => ?_⟩
  · by_contra hreach
    exact Cells.computedAt_ne_cycle Registry.keepsErrors_builtins hregular.covered id
      (horder hreach) hcycle
  · exact Cells.computedAt_of_blocked .builtins hregular.covered
      (DependencyGraph.mem_blocked_iff.mpr ⟨hkey, hcycle⟩)
  · exact (Cells.progress_recompute .builtins hregular.covered).upToDate id (horder hcycle)
      formula hgraph

/-- A formula that reads another one, next to a formula that reads itself. -/
theorem recompute_fixpoint_sum :
    let sheet : Sheet := { cells := .ofList [("A1", { formula := some "=B1+1" }),
      ("B1", { formula := some "=2" }), ("C1", { formula := some "=C1" })] }
    sheet.IsRegular ∧ (sheet.cells.get? "A1").isSome ∧
      (((sheet.recompute .builtins).cells.computedAt "A1" = some .cycle ↔
        (DependencyGraph.ofCells sheet.cells).ReachesCycle "A1") ∧
      (¬ (DependencyGraph.ofCells sheet.cells).ReachesCycle "A1" →
        (sheet.recompute .builtins).cells.computedAt "A1"
          = some ((sheet.recompute .builtins).evaluate .builtins "=B1+1"))) := by
  intro sheet
  have hregular : sheet.IsRegular := by decide +kernel
  exact ⟨hregular, by decide +kernel,
    recompute_fixpoint hregular (c := { formula := some "=B1+1" }) rfl rfl⟩

end Sheet

end Spreadsheet
