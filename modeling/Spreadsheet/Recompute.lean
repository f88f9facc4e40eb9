import Spreadsheet.Dependency.Order
import Spreadsheet.Evaluate

/-!
# Recomputation

The values of all cells of a sheet.

First every literal gets its value, then the formulas are evaluated one after the
other in the order of the dependency graph, each seeing the values of those
before it. The formulas that have no place in the order get the error of a cycle
without being evaluated. Nothing but the computed values changes.

## Main definitions

* `Cells.resolveLiterals`: The cells with the values of their literals.
* `Cells.calculate`: The cells with the values of their formulas.
* `Sheet.recompute`: A sheet with all values found anew.
-/

namespace Spreadsheet

namespace Cells

/-- The cells with the value of every literal. -/
def resolveLiterals (cells : Cells) : Cells :=
  cells.mapValues fun _ c =>
    if c.isFormula then c else { c with computed := some (.ofLiteral c.value) }

/-- The cells with another computed value for one of them. -/
def setComputed (cells : Cells) (id : String) (v : Value) : Cells :=
  match cells.get? id with
  | some c => cells.insert id { c with computed := some v }
  | none => cells

/-- The cells after the formula of one of them is evaluated. -/
def evaluateAt (functions : Registry) (graph : DependencyGraph) (cells : Cells) (id : String) :
    Cells :=
  match graph.formulas.get? id with
  | some formula => cells.setComputed id (Scope.evaluate ⟨cells, functions⟩ formula)
  | none => cells

/-- The cells with the values of all formulas of a graph. -/
def calculate (functions : Registry) (graph : DependencyGraph) (cells : Cells) : Cells :=
  let evaluated := graph.order.foldl (evaluateAt functions graph) cells
  graph.blocked.foldl (fun cells id => cells.setComputed id .cycle) evaluated

end Cells

namespace Sheet

/-- The sheet with the values of all its cells found anew. -/
def recompute (functions : Registry) (sheet : Sheet) : Sheet :=
  let graph := DependencyGraph.ofCells sheet.cells
  { sheet with cells := sheet.cells.resolveLiterals.calculate functions graph }

end Sheet

end Spreadsheet
