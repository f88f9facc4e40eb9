import Spreadsheet.Proofs.Dependency.Edges
import Spreadsheet.Proofs.Dependency.Order

/-!
# The Order of the Formulas of a Sheet

What the evaluation order of a graph says about the formulas it was built from.

The order is a matter of the graph alone, and which formula reads which cell is a
matter of the texts. Both meet in the edges: in a graph that is built from cells there
is an edge exactly where the text of one formula mentions the cell of another one, or
a block that holds it (`Cells.ReadsFormula`). So the order that the counters and the
queue come to can be described without them. It goes from what is read to what reads
it, and leaves out the formulas whose reading comes to no end.

## Main definitions

* `Cells.ReadsFormula`: The formula of one cell reads another cell with a formula.

## Theorems

* `DependencyGraph.edge_ofCells_iff`: The edges are told by the formulas.
* `DependencyGraph.order_ofCells`: What is in the order, where it stands, and what is
  blocked.
-/

namespace Spreadsheet

open Relation

/-- The formula of one cell reads another cell that has a formula, or its own. -/
def Cells.ReadsFormula (cells : Cells) (reader id : String) : Prop :=
  (∃ formula, (cells.get? reader).bind Cell.formula? = some formula ∧ Formula.Reads formula id) ∧
    ∃ formula, (cells.get? id).bind Cell.formula? = some formula

namespace DependencyGraph

variable {cells : Cells}

/-- The edges between cells are told by their formulas. -/
theorem edge_ofCells_iff {reader id : String} :
    (ofCells cells).Edge reader id ↔ cells.ReadsFormula reader id := by
  rw [Edge, (isExact_ofCells cells).isReader_iff, OrderedMap.mem_keys_iff, OrderedMap.mem_keys_iff,
    formulas_ofCells, formulas_ofCells]
  constructor
  · rintro ⟨_, hid, hreads⟩
    exact ⟨hreads, hid⟩
  · rintro ⟨⟨formula, hformula, hreads⟩, hid⟩
    exact ⟨⟨formula, hformula⟩, hid, formula, hformula, hreads⟩

theorem edge_ofCells (cells : Cells) : (ofCells cells).Edge = cells.ReadsFormula :=
  funext fun _ => funext fun _ => propext edge_ofCells_iff

theorem mem_keys_ofCells_iff {id : String} :
    id ∈ (ofCells cells).formulas.keys ↔
      ∃ formula, (cells.get? id).bind Cell.formula? = some formula := by
  rw [OrderedMap.mem_keys_iff, formulas_ofCells]

/-- A formula has a place in the order or is blocked, and not both. What a formula in
    the order reads stands before it. The formulas that are blocked lie on a cycle of
    reads, or read their way to one. -/
theorem order_ofCells (cells : Cells) :
    let graph := ofCells cells
    graph.order.Nodup ∧ graph.order.Disjoint graph.blocked ∧
    (∀ id, id ∈ graph.order ∨ id ∈ graph.blocked ↔
      ∃ formula, (cells.get? id).bind Cell.formula? = some formula) ∧
    (∀ front id back, graph.order = front ++ id :: back →
      ∀ id', cells.ReadsFormula id id' → id' ∈ front) ∧
    ∀ id, id ∈ graph.blocked ↔
      ∃ id', ReflTransGen cells.ReadsFormula id id' ∧ TransGen cells.ReadsFormula id' id' := by
  intro graph
  have hedge : graph.Edge = cells.ReadsFormula := edge_ofCells cells
  -- Blocked is what the walk left over, so this and the order share nothing.
  refine ⟨graph.nodup_order, fun id horder hblocked => (mem_blocked.mp hblocked).2 horder,
    fun id => ?_, fun front id back horder id' hreads => ?_, fun id => ?_⟩
  · rw [← mem_keys_ofCells_iff, mem_blocked]
    refine ⟨fun h => h.elim (fun horder => (mem_order_iff.mp horder).1) And.left, fun hkey => ?_⟩
    exact (Decidable.em (id ∈ graph.order)).imp_right fun horder => ⟨hkey, horder⟩
  · rw [← hedge] at hreads
    exact mem_front_of_order horder hreads
  · rw [mem_blocked_iff, ReachesCycle, hedge, and_iff_right_iff_imp]
    -- What begins a way of reads is a formula: on a way of no steps, by the cycle.
    rintro ⟨id', hpath, hcycle⟩
    refine mem_keys_ofCells_iff.mpr ?_
    rcases ReflTransGen.cases_head hpath with rfl | ⟨_, hreads, _⟩
    · rcases TransGen.head'_iff.mp hcycle with ⟨_, hreads, _⟩
      exact hreads.1.imp fun _ h => h.1
    · exact hreads.1.imp fun _ h => h.1

/-- A formula that reads a cell and a block, in front of both and beside a cycle. -/
theorem order_ofCells_block :
    let cells : Cells := .ofList [("A1", { formula := some "=B1+SUM(C2:C1)" }),
      ("B1", { formula := some "=C2" }), ("C2", { formula := some "=1" }),
      ("D1", { formula := some "=D1" }), ("E1", { formula := some "=A1+D1" })]
    (ofCells cells).order = ["C2", "B1"] ++ "A1" :: [] ∧ cells.ReadsFormula "A1" "C2" ∧
      "C2" ∈ ["C2", "B1"] := by
  intro cells
  have horder : (ofCells cells).order = ["C2", "B1"] ++ "A1" :: [] := by decide +kernel
  have hreads : cells.ReadsFormula "A1" "C2" :=
    ⟨⟨"=B1+SUM(C2:C1)", by decide +kernel, by decide +kernel⟩, "=1", by decide +kernel⟩
  exact ⟨horder, hreads, (order_ofCells cells).2.2.2.1 _ _ _ horder _ hreads⟩

end DependencyGraph

end Spreadsheet
