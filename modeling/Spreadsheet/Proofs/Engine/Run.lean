import Spreadsheet.Proofs.Engine.Change
import Spreadsheet.Proofs.Recompute.Entries

/-!
# Engines at Work

What an engine holds while it is calculated and edited.

Whatever is asked of an engine, its workbook stays the calculation of a sheet
(`Workbook.IsCalculated`): an edit types texts into the cells and calculates the
sheet that this gives, and to calculate once more changes nothing. So the values in
an engine are always those of a single recomputation, however many edits there
were, and what is known of a recomputation holds of them.

## Main definitions

* `Workbook.IsCalculated`: A workbook is the calculation of a sheet.
* `Engine.Calculated`: The engines that were loaded, calculated and then edited.

## Theorems

* `Workbook.edited_eq`: An edited workbook is the calculation of the sheet with the
  texts typed in.
* `Workbook.IsCalculated.calculate_eq`: To calculate once more changes nothing.
* `Workbook.IsCalculated.edited`: An edit keeps a workbook calculated.
* `Engine.exists_report`: When there is a report.
* `Engine.Calculated.exists_book`: A run keeps the workbook of an engine calculated.
-/

namespace Spreadsheet

namespace Workbook

variable {functions : Registry} {book : Workbook}

/-- A workbook is what the calculation of a sheet comes to, whose formulas are
    covered. -/
def IsCalculated (functions : Registry) (book : Workbook) : Prop :=
  ∃ sheet : Sheet, sheet.cells.Covered ∧ book = (ofSheet sheet).calculate functions

theorem cells_calculate_ofSheet (functions : Registry) (sheet : Sheet) :
    ((ofSheet sheet).calculate functions).sheet.cells = sheet.cells.recompute functions := rfl

/-- An edited workbook is the calculation of the sheet with the texts typed in. -/
theorem edited_eq (functions : Registry) (book : Workbook) (edits : OrderedMap String String) :
    book.edited functions edits
      = (ofSheet { book.sheet with cells := book.sheet.cells.typed edits.entries }).calculate
          functions := rfl

theorem cells_edited (functions : Registry) (book : Workbook) (edits : OrderedMap String String) :
    (book.edited functions edits).sheet.cells
      = (book.sheet.cells.typed edits.entries).recompute functions := by
  rw [edited_eq, cells_calculate_ofSheet]

/-- To calculate once more changes nothing. -/
theorem IsCalculated.calculate_eq (h : book.IsCalculated functions) :
    book.calculate functions = book := by
  rcases h with ⟨sheet, hcovered, rfl⟩
  -- The graph is still the one of the cells, and their literals have their values, so
  -- to calculate is to recompute.
  have hcells : (sheet.cells.recompute functions).calculate functions
      (DependencyGraph.ofCells sheet.cells) = sheet.cells.recompute functions := by
    rw [← Cells.ofCells_recompute functions]
    calc (sheet.cells.recompute functions).calculate functions
          (DependencyGraph.ofCells (sheet.cells.recompute functions))
        = (sheet.cells.recompute functions).recompute functions := by
          rw [Cells.recompute.eq_def functions (sheet.cells.recompute functions),
            Cells.resolveLiterals_recompute functions hcovered]
      _ = sheet.cells.recompute functions := Cells.recompute_recompute functions hcovered
  exact congrArg (fun cells => { (ofSheet sheet).calculate functions with
    sheet := { sheet with cells := cells } }) hcells

theorem IsCalculated.covered (h : book.IsCalculated functions) : book.sheet.cells.Covered := by
  rcases h with ⟨sheet, hcovered, rfl⟩
  exact Cells.covered_recompute hcovered

/-- An edit keeps a workbook calculated. -/
theorem IsCalculated.edited (h : book.IsCalculated functions) {edits : OrderedMap String String}
    (htexts : ∀ edit ∈ edits.entries, Formula.IsRegularText edit.2) :
    (book.edited functions edits).IsCalculated functions :=
  ⟨_, Cells.covered_typed h.covered htexts, edited_eq functions book edits⟩

end Workbook

namespace Engine

/-- The engines into which a sheet with regular formulas was loaded and which were
    calculated then, whatever else they were asked for since. -/
inductive Calculated : Engine → Prop where
  | load {engine after : Engine} {sheet : Sheet} (hregular : sheet.IsRegular)
      (hafter : (engine.load sheet).calculate = .ok after) : Calculated after
  | calculate {engine after : Engine} (h : Calculated engine)
      (hafter : engine.calculate = .ok after) : Calculated after
  | recalculate {engine : Engine} (h : Calculated engine) {edits : OrderedMap String String}
      (htexts : ∀ edit ∈ edits.entries, Formula.IsRegularText edit.2) (tolerance : Number) :
      Calculated (engine.recalculate edits tolerance).2

/-- The calculation of a sheet that was just loaded. -/
theorem calculate_load (engine : Engine) (sheet : Sheet) :
    (engine.load sheet).calculate
      = .ok { engine with book := some ((Workbook.ofSheet sheet).calculate engine.functions) } :=
  rfl

/-- Edits are done if all of them are edits of cells. -/
theorem find?_eq_none_iff_isSome {edits : OrderedMap String String} :
    edits.keys.find? (fun id => (Address.ofId? id).isNone) = none ↔
      ∀ id ∈ edits.keys, (Address.ofId? id).isSome = true := by
  rw [List.find?_eq_none]
  refine forall₂_congr fun id _ => ?_
  rw [Option.isNone_iff_eq_none, Option.isSome_iff_ne_none]

/-- What becomes of an engine that takes edits of cells. -/
theorem recalculate_of_cells {engine : Engine} {book : Workbook} (hbook : engine.book = some book)
    {edits : OrderedMap String String}
    (hids : edits.keys.find? (fun id => (Address.ofId? id).isNone) = none) (tolerance : Number) :
    engine.recalculate edits tolerance
      = (report edits tolerance book (book.edited engine.functions edits),
          { engine with book := some (book.edited engine.functions edits) }) := by
  rw [recalculate, loaded, hbook]
  simp only [hids]

/-- What becomes of an engine that takes an edit of what is no cell. -/
theorem recalculate_of_not_cell {engine : Engine} {book : Workbook}
    (hbook : engine.book = some book) {edits : OrderedMap String String} {id : String}
    (hid : edits.keys.find? (fun id => (Address.ofId? id).isNone) = some id) (tolerance : Number) :
    engine.recalculate edits tolerance = (.error (.badCellId id), engine) := by
  rw [recalculate, loaded, hbook]
  simp only [hid]

/-- There is a report only of edits of cells. -/
theorem find?_eq_none_of_report {engine : Engine} {book : Workbook}
    (hbook : engine.book = some book) {edits : OrderedMap String String} {tolerance : Number}
    {report : Report} (hreport : (engine.recalculate edits tolerance).1 = .ok report) :
    edits.keys.find? (fun id => (Address.ofId? id).isNone) = none := by
  cases hfind : edits.keys.find? (fun id => (Address.ofId? id).isNone) with
  | none => rfl
  | some id =>
      rw [recalculate_of_not_cell hbook hfind] at hreport
      cases hreport

/-- There is a report if there are no numbers beyond the doubles, before or after. -/
theorem exists_report {engine : Engine} {book : Workbook} (hbook : engine.book = some book)
    {edits : OrderedMap String String}
    (hids : edits.keys.find? (fun id => (Address.ofId? id).isNone) = none) (tolerance : Number)
    (hbefore : book.sheet.cells.AreComparable)
    (hafter : (book.edited engine.functions edits).sheet.cells.AreComparable) :
    ∃ report, (engine.recalculate edits tolerance).1 = .ok report := by
  rcases Change.exists_between tolerance hbefore hafter with ⟨changes, hchanges⟩
  rw [recalculate_of_cells hbook hids, report]
  simp only [hchanges]
  exact ⟨_, rfl⟩

/-- A run keeps the workbook of an engine calculated. -/
theorem Calculated.exists_book {engine : Engine} (h : engine.Calculated) :
    ∃ book, engine.book = some book ∧ book.IsCalculated engine.functions := by
  induction h with
  | load hregular hafter =>
      rename_i engine after sheet
      rw [calculate_load, Except.ok.injEq] at hafter
      rw [← hafter]
      exact ⟨_, rfl, sheet, hregular.covered, rfl⟩
  -- To calculate once more leaves the workbook as it is.
  | calculate _ hafter ih =>
      rcases ih with ⟨book, hbook, hcalculated⟩
      rw [Engine.calculate, loaded, hbook] at hafter
      rw [← Except.ok.inj hafter]
      exact ⟨_, rfl, by rwa [hcalculated.calculate_eq]⟩
  | recalculate _ htexts tolerance ih =>
      rename_i engine _ edits
      rcases ih with ⟨book, hbook, hcalculated⟩
      -- Either nothing was done, or the edited workbook is there, report or not.
      cases hfind : edits.keys.find? (fun id => (Address.ofId? id).isNone) with
      | some id =>
          rw [recalculate_of_not_cell hbook hfind]
          exact ⟨book, hbook, hcalculated⟩
      | none =>
          rw [recalculate_of_cells hbook hfind]
          exact ⟨_, rfl, hcalculated.edited htexts⟩

end Engine

end Spreadsheet
