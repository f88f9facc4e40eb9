import Spreadsheet.Proofs.Engine.Run

/-!
# What an Edit Leaves Alone

An edit changes only what it reaches.

An edit reaches the cells that it types into, the formulas that read one of them,
the formulas that read one of those, and so on, in the graph of the edited sheet.
The other cells make a region: no formula there reads a cell that is reached, for
then it would be reached itself. So nothing that the region depends on was typed
into, although every value was found anew, in another order perhaps, and although
the sheet grew or shrank.

The graph before the edit need not be looked at. A cell that lost its formula, or a
formula that read one, was typed into or reads a cell that was.

## Main definitions

* `DependencyGraph.Reaches`: What can be got to from some cells by going from a cell
  to its readers.
* `Cells.unreached`: The region that a set of edits does not reach.

## Theorems

* `Cells.sameInputOn_unreached`: In the region nothing was typed in, and nothing
  outside is read.
* `Cells.get?_recompute_typed`: The cells of the region are as they were.
* `Engine.recalculate_unreached`: A recalculation reports only cells that the edits
  reach, and leaves the others alone.
-/

namespace Spreadsheet

/-- What can be got to from some cells by going from a cell to its readers. -/
def DependencyGraph.Reaches (graph : DependencyGraph) (start : List String) (id : String) : Prop :=
  ∃ first ∈ start, Relation.ReflTransGen (fun id reader => reader ∈ graph.readersOf id) first id

namespace Cells

variable {cells : Cells} {edits : List (String × String)}

/-- The cells that some edits do not reach. -/
def unreached (edits : List (String × String)) (cells : Cells) : Set String :=
  fun id => ¬ (DependencyGraph.ofCells (cells.typed edits)).Reaches (edits.map Prod.fst) id

theorem not_mem_of_unreached {id : String} (hid : id ∈ cells.unreached edits) :
    id ∉ edits.map Prod.fst :=
  fun hmem => hid ⟨id, hmem, .refl⟩

/-- A formula that reads what the edits reach is reached. -/
theorem reaches_of_reads {start : List String} {id id' formula : String}
    (hformula : (cells.get? id).bind Cell.formula? = some formula)
    (hreads : Formula.Reads formula id')
    (hreached : (DependencyGraph.ofCells cells).Reaches start id') :
    (DependencyGraph.ofCells cells).Reaches start id := by
  rcases hreached with ⟨first, hfirst, hpath⟩
  rw [← DependencyGraph.formulas_ofCells] at hformula
  refine ⟨first, hfirst, hpath.tail ?_⟩
  rw [DependencyGraph.readersOf, List.mem_filter]
  exact ⟨(OrderedMap.mem_keys_iff _).mpr ⟨formula, hformula⟩,
    (DependencyGraph.isExact_ofCells cells).isReader_iff.mpr ⟨formula, hformula, hreads⟩⟩

/-- In the region that the edits do not reach nothing was typed in, and no formula
    reads anything outside of it. -/
theorem sameInputOn_unreached (edits : List (String × String)) (cells : Cells) :
    SameInputOn (cells.unreached edits) cells (cells.typed edits) where
  input := fun id hid => by rw [get?_typed_of_not_mem (not_mem_of_unreached hid)]
  closed := fun id hid formula hformula id' hreads hreached => by
    -- If the formula read a cell that is reached, it would be reached itself.
    rw [← get?_typed_of_not_mem (not_mem_of_unreached hid)] at hformula
    exact hid (reaches_of_reads hformula hreads hreached)

/-- The cells that the edits do not reach are as they were. -/
theorem get?_recompute_typed (functions : Registry) (hcovered : cells.Covered)
    (htexts : ∀ edit ∈ edits, Formula.IsRegularText edit.2) {id : String}
    (hid : id ∈ cells.unreached edits) :
    ((cells.typed edits).recompute functions).get? id = (cells.recompute functions).get? id := by
  have hcomputed := (sameInputOn_unreached edits cells).computedAt_eq functions hcovered
    (covered_typed hcovered htexts) hid
  have hentry : (((cells.typed edits).recompute functions).get? id).map Cell.entry
      = ((cells.recompute functions).get? id).map Cell.entry := by
    rw [(sameEntries_recompute functions _).entry, (sameEntries_recompute functions _).entry,
      get?_typed_of_not_mem (not_mem_of_unreached hid)]
  exact get?_eq_of_entry hentry hcomputed.symm

end Cells

namespace Workbook

/-- What an edit does not reach is as it was, and on a cycle or behind one only if it
    was before. -/
theorem IsCalculated.edited_unreached {functions : Registry} {book : Workbook}
    (h : book.IsCalculated functions) {edits : OrderedMap String String}
    (htexts : ∀ edit ∈ edits.entries, Formula.IsRegularText edit.2) {id : String}
    (hid : ¬ (book.edited functions edits).graph.Reaches edits.keys id) :
    (book.edited functions edits).sheet.cells.get? id = book.sheet.cells.get? id ∧
      (id ∈ (book.edited functions edits).circular ↔ id ∈ book.circular) := by
  have hcovered := h.covered
  rcases h with ⟨sheet, hsheet, rfl⟩
  rw [cells_calculate_ofSheet] at hcovered
  -- The graph of the edited workbook is that of the cells with the texts typed in.
  have hunreached : id ∈ (sheet.cells.recompute functions).unreached edits.entries := hid
  have hregion := Cells.sameInputOn_unreached edits.entries (sheet.cells.recompute functions)
  have hcell := Cells.get?_recompute_typed functions hcovered htexts hunreached
  -- The engine holds cells that were recomputed, so nothing changes by doing it again.
  rw [Cells.recompute_recompute functions hsheet] at hcell
  refine ⟨hcell, ?_⟩
  show id ∈ (DependencyGraph.ofCells ((sheet.cells.recompute functions).typed
    edits.entries)).blocked ↔ id ∈ (DependencyGraph.ofCells sheet.cells).blocked
  rw [DependencyGraph.mem_blocked_iff, DependencyGraph.mem_blocked_iff,
    ← hregion.sameFormulasOn.mem_keys_iff hunreached,
    ← hregion.sameFormulasOn.reachesCycle_iff hunreached,
    Cells.ofCells_recompute]

end Workbook

namespace Engine

/-- A recalculation reports only cells that the edits reach, and leaves the others
    alone. -/
theorem recalculate_unreached {engine : Engine} (hcalculated : engine.Calculated)
    {edits : OrderedMap String String}
    (htexts : ∀ edit ∈ edits.entries, Formula.IsRegularText edit.2)
    {tolerance : Number} (htolerance : tolerance.IsNonnegative) {report : Report}
    (hreport : (engine.recalculate edits tolerance).1 = .ok report) :
    ∃ before after, engine.book = some before ∧
      (engine.recalculate edits tolerance).2.book = some after ∧
      (∀ change ∈ report.changes, after.graph.Reaches edits.keys change.id) ∧
      ∀ id, ¬ after.graph.Reaches edits.keys id →
        after.sheet.cells.get? id = before.sheet.cells.get? id ∧
          (id ∈ after.circular ↔ id ∈ before.circular) := by
  rcases hcalculated.exists_book with ⟨before, hbook, hbefore⟩
  have hfind := find?_eq_none_of_report hbook hreport
  rw [recalculate_of_cells hbook hfind] at hreport ⊢
  refine ⟨before, _, hbook, rfl, fun change hchange => ?_, fun id hid =>
    hbefore.edited_unreached htexts hid⟩
  -- What the edits do not reach has its value from before, so it is not reported.
  by_contra hunreached
  rcases exists_of_bind hreport with ⟨changes, hbetween, hchanges⟩
  rw [← Except.ok.inj hchanges] at hchange
  have hdiffers := Change.differs_of_mem_between hbetween hchange
  rw [Cells.computedAt, Cells.computedAt,
    (hbefore.edited_unreached htexts hunreached).1] at hdiffers
  exact Value.differs_self htolerance _ hdiffers

/-- A cell and a formula that reads it change with the cell, and what reads another
    one does not. -/
theorem recalculate_unreached_sum :
    let sheet : Sheet := { cells := .ofList [("A1", { value := "1" }),
      ("B1", { formula := some "=A1+1" }), ("C1", { formula := some "=C2*2" })] }
    let engine : Engine := ⟨.builtins, some ((Workbook.ofSheet sheet).calculate .builtins)⟩
    let edits : OrderedMap String String := .ofList [("A1", "=4/2")]
    ∃ report before after, (engine.recalculate edits defaultTolerance).1 = .ok report ∧
      engine.book = some before ∧
      (engine.recalculate edits defaultTolerance).2.book = some after ∧
      (∀ change ∈ report.changes, after.graph.Reaches edits.keys change.id) ∧
      ∀ id, ¬ after.graph.Reaches edits.keys id →
        after.sheet.cells.get? id = before.sheet.cells.get? id ∧
          (id ∈ after.circular ↔ id ∈ before.circular) := by
  intro sheet engine edits
  have hcalculated : engine.Calculated :=
    @Calculated.load ⟨.builtins, none⟩ engine sheet (by decide +kernel) rfl
  have hbook : engine.book = some ((Workbook.ofSheet sheet).calculate .builtins) := rfl
  have hids : edits.keys.find? (fun id => (Address.ofId? id).isNone) = none := by decide +kernel
  rcases exists_report hbook hids defaultTolerance (by decide +kernel) (by decide +kernel) with
    ⟨report, hreport⟩
  rcases recalculate_unreached hcalculated (by decide +kernel) (by decide +kernel) hreport with
    ⟨before, after, h⟩
  exact ⟨report, before, after, hreport, h⟩

end Engine

end Spreadsheet
