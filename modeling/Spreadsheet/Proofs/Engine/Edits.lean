import Spreadsheet.Edit
import Spreadsheet.Proofs.Address.Codec
import Spreadsheet.Proofs.Engine.Run

/-!
# Edits, One by One and Together

The two ways to edit agree.

A user commits one edit after the other, and every value is found anew after each.
An engine takes several edits at once and finds the values anew after the last.
Between two edits the former has values that the latter never sees, and it forgets
all of them: each edit can be moved before the recomputation that precedes it.

## Main definitions

* `Sheet.commitNamed`: A text typed into the cell with a name.

## Theorems

* `Sheet.foldlM_commitNamed`: Edits one by one come to a single recomputation.
* `Engine.snapshot_recalculate`: So do edits together.
-/

namespace Spreadsheet

namespace Sheet

/-- The sheet after a text is typed into the cell with a name. What names no cell is
    passed over. -/
def commitNamed (sheet : Sheet) (edit : String × String) : Except EditError Sheet :=
  match Address.ofId? edit.1 with
  | some a => sheet.commitEdit a edit.2
  | none => .ok sheet

theorem commitNamed_of_isCanonical (sheet : Sheet) {id : String} (h : Address.IsCanonical id)
    (text : String) :
    sheet.commitNamed (id, text)
      = .ok ({ sheet with cells := sheet.cells.putText id text }.recompute .builtins) := by
  rcases Address.exists_toId_of_isCanonical h with ⟨a, ha, hid⟩
  rw [commitNamed, ha]
  show (a.toId.mapError EditError.address).bind _ = _
  rw [hid]
  rfl

theorem recompute_with_cells (functions : Registry) (sheet : Sheet) (cells : Cells) :
    { sheet with cells := cells }.recompute functions
      = { sheet with cells := cells.recompute functions } := rfl

/-- Edits one by one come to a single recomputation after the last one. -/
theorem foldlM_commitNamed {sheet : Sheet} (hcovered : sheet.cells.Covered)
    {edits : List (String × String)} (hids : ∀ edit ∈ edits, Address.IsCanonical edit.1)
    (htexts : ∀ edit ∈ edits, Formula.IsRegularText edit.2) :
    edits.foldlM commitNamed (sheet.recompute .builtins)
      = .ok ({ sheet with cells := sheet.cells.typed edits }.recompute .builtins) := by
  induction edits generalizing sheet with
  | nil => rfl
  | cons edit edits ih =>
      have htext := htexts edit List.mem_cons_self
      rw [List.foldlM_cons]
      show (commitNamed (sheet.recompute .builtins) (edit.1, edit.2)).bind _ = _
      rw [commitNamed_of_isCanonical _ (hids edit List.mem_cons_self)]
      -- The values found before the first edit are forgotten after it.
      have hstep : { sheet.recompute .builtins with
            cells := (sheet.recompute .builtins).cells.putText edit.1 edit.2 }.recompute .builtins
          = { sheet with cells := sheet.cells.putText edit.1 edit.2 }.recompute .builtins := by
        rw [recompute_with_cells, recompute_with_cells]
        exact congrArg (fun cells => { sheet with cells := cells })
          (Cells.recompute_putText_recompute .builtins hcovered edit.1 htext)
      rw [hstep]
      exact ih (Cells.covered_putText hcovered edit.1 htext)
        (fun edit' hedit' => hids edit' (List.mem_cons_of_mem _ hedit'))
        fun edit' hedit' => htexts edit' (List.mem_cons_of_mem _ hedit')

end Sheet

namespace Engine

theorem find?_eq_none_of_isCanonical {edits : OrderedMap String String}
    (hids : ∀ id ∈ edits.keys, Address.IsCanonical id) :
    edits.keys.find? (fun id => (Address.ofId? id).isNone) = none := by
  refine find?_eq_none_iff_isSome.mpr fun id hid => ?_
  rcases Address.exists_toId_of_isCanonical (hids id hid) with ⟨a, ha, _⟩
  rw [ha]
  rfl

/-- Edits that an engine takes together come to what the same edits come to one by
    one, and there is a report of them unless the sheet fills the memory. -/
theorem snapshot_recalculate {engine : Engine} (hbuiltins : engine.functions = .builtins)
    {sheet : Sheet} (hregular : sheet.IsRegular) {edits : OrderedMap String String}
    (hids : ∀ id ∈ edits.keys, Address.IsCanonical id)
    (htexts : ∀ edit ∈ edits.entries, Formula.IsRegularText edit.2) (tolerance : Number) :
    ∃ calculated result, (engine.load sheet).calculate = .ok calculated ∧
      edits.entries.foldlM Sheet.commitNamed (sheet.recompute .builtins) = .ok result ∧
      (calculated.recalculate edits tolerance).2.snapshot = .ok result ∧
      (sheet.cells.IsSmall → (sheet.cells.typed edits.entries).IsSmall →
        ∃ report, (calculated.recalculate edits tolerance).1 = .ok report) := by
  rcases engine with ⟨functions, previous⟩
  cases hbuiltins
  have hcovered := hregular.covered
  have hfind := find?_eq_none_of_isCanonical hids
  let book : Workbook := (Workbook.ofSheet sheet).calculate .builtins
  -- The values found before the edits are forgotten after them.
  have hcells : (sheet.cells.recompute .builtins |>.typed edits.entries).recompute .builtins
      = (sheet.cells.typed edits.entries).recompute .builtins :=
    ((Cells.sameEntries_recompute .builtins sheet.cells).typed edits.entries).recompute_eq .builtins
      (Cells.covered_typed (Cells.covered_recompute hcovered) htexts)
  have hedited : (book.edited .builtins edits).sheet
      = { sheet with cells := sheet.cells.typed edits.entries }.recompute .builtins :=
    congrArg (fun cells => { sheet with cells := cells }) hcells
  -- Both ways end in the recomputation of the cells with all texts typed in.
  refine ⟨⟨.builtins, some book⟩,
    { sheet with cells := sheet.cells.typed edits.entries }.recompute .builtins, rfl, ?_, ?_, ?_⟩
  · refine Sheet.foldlM_commitNamed hcovered (fun edit hedit => hids _ ?_) htexts
    exact List.mem_map_of_mem hedit
  · rw [recalculate_of_cells rfl hfind, ← hedited]
    rfl
  · intro hsmall hsmall'
    refine exists_report rfl hfind tolerance
      (Cells.areComparable_recompute Registry.keepsComparable_builtins hcovered hsmall) ?_
    show (book.edited .builtins edits).sheet.cells.AreComparable
    rw [hedited]
    exact Cells.areComparable_recompute Registry.keepsComparable_builtins
      (Cells.covered_typed hcovered htexts) hsmall'

/-- A formula is made the start of a cycle, and the cell that it read is cleared. -/
theorem snapshot_recalculate_cycle :
    let sheet : Sheet := { cells := .ofList [("A1", { value := "1" }),
      ("B1", { formula := some "=A1+1" }), ("C1", { formula := some "=B1*2" })] }
    let engine : Engine := ⟨.builtins, none⟩
    let edits : OrderedMap String String := .ofList [("B1", "=C1+1"), ("A1", ""), ("D4", "=7/2")]
    sheet.IsRegular ∧ (∀ id ∈ edits.keys, Address.IsCanonical id) ∧
      (∀ edit ∈ edits.entries, Formula.IsRegularText edit.2) ∧
      ∃ calculated result, (engine.load sheet).calculate = .ok calculated ∧
        edits.entries.foldlM Sheet.commitNamed (sheet.recompute .builtins) = .ok result ∧
        (calculated.recalculate edits defaultTolerance).2.snapshot = .ok result ∧
        ∃ report, (calculated.recalculate edits defaultTolerance).1 = .ok report := by
  intro sheet engine edits
  have hregular : sheet.IsRegular := by decide +kernel
  have hids : ∀ id ∈ edits.keys, Address.IsCanonical id := by decide +kernel
  have htexts : ∀ edit ∈ edits.entries, Formula.IsRegularText edit.2 := by decide +kernel
  rcases @snapshot_recalculate engine rfl sheet hregular edits hids htexts defaultTolerance with
    ⟨calculated, result, hcalculated, hresult, hsnapshot, hreport⟩
  exact ⟨hregular, hids, htexts, calculated, result, hcalculated, hresult, hsnapshot,
    hreport (by decide +kernel) (by decide +kernel)⟩

end Engine

end Spreadsheet
