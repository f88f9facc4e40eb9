import Spreadsheet.Proofs.Address.Codec
import Spreadsheet.Proofs.Document.Entry
import Spreadsheet.Proofs.Recompute.Entries

/-!
# Documents Are Read Back

The document of a sheet gives the sheet again.

A document has no names of cells. The name of a cell is put together from the label
it stands under and the place of its row in the list, so nothing may be lost there:
rows without cells are kept, and what is written under a label is the only cell with
the canonical name that label and row make up. Reading then puts back one cell after
the other, whatever is there already (`Cells.restore`), and since every name stands
for one cell the order does not matter. Nor does it for the values, which are found
anew: recomputation depends on what was entered only.

What is not read back is what says nothing, a formula without text or a style that
sets no attribute.

## Main definitions

* `Cells.restore`: A cell of a document put back.
* `Cells.rowOf`: The cells that a document lists in one row.

## Theorems

* `Cells.get?_foldl_restore`: The cells after several were put back.
* `Cells.addField_of_mem_listed`: A field puts back the cell that it was written for.
* `Cells.exists_ofRows_toRows`: The rows put back all cells.
* `Sheet.ofDocument_toDocument`: A document gives the sheet that it was written for.
* `Sheet.not_ofDocument_toDocument_self`: But not formulas without text.
-/

namespace Spreadsheet

namespace Address

/-- A name is a label followed by the number of a row. -/
theorem ofList_letters_append (row col : Nat) :
    String.ofList (Column.letters col) ++ toString (row + 1) = cellId row col :=
  String.ofList_append.symm

end Address

namespace Cells

/-- The cells with one of a document put back. -/
def restore (source cells : Cells) (id : String) : Cells :=
  match source.get? id with
  | some c => cells.insert id c.tidy.entry
  | none => cells

variable {source : Cells}

theorem restore_of_get? {id : String} {c : Cell} (h : source.get? id = some c) (cells : Cells) :
    source.restore cells id = cells.insert id c.tidy.entry := by rw [restore, h]

theorem restore_of_none {id : String} (h : source.get? id = none) (cells : Cells) :
    source.restore cells id = cells := by rw [restore, h]

/-- Whatever was put back is there, and nothing else has changed. -/
theorem get?_foldl_restore (ids : List String) (cells : Cells) (id : String) :
    (ids.foldl source.restore cells).get? id
      = if id ∈ ids then ((source.get? id).map fun c => c.tidy.entry).or (cells.get? id)
        else cells.get? id := by
  induction ids generalizing cells with
  | nil => rfl
  | cons id' ids ih =>
      rw [List.foldl_cons, ih]
      cases hget : source.get? id' with
      -- There is nothing under the name, and nothing is put back.
      | none =>
          rw [restore_of_none hget]
          by_cases hid : id = id'
          · rw [hid, hget, if_pos List.mem_cons_self]
            split <;> rfl
          · simp only [List.mem_cons, hid, false_or]
      | some c =>
          rw [restore_of_get? hget]
          by_cases hid : id = id'
          · rw [hid, hget, if_pos List.mem_cons_self, OrderedMap.get?_insert_self]
            split <;> rfl
          · simp only [OrderedMap.get?_insert_of_ne _ _ hid, List.mem_cons, hid, false_or]

/-- What a document lists: the cells with an address that have a text or a formula. -/
theorem mem_listed {a : Address} {c : Cell} :
    (a, c) ∈ source.listed ↔
      (∃ id, source.get? id = some c ∧ Address.ofId? id = some a) ∧
        (c.value ≠ "" ∨ c.isFormula = true) := by
  rw [listed, List.mem_filter, (List.mergeSort_perm _ _).mem_iff, List.mem_filterMap]
  refine and_congr ⟨fun h => ?_, fun h => ?_⟩ ?_
  · rcases h with ⟨e, he, hmap⟩
    rcases Option.map_eq_some_iff.mp hmap with ⟨a', ha', heq⟩
    rw [← (Prod.mk.inj heq).1, ← (Prod.mk.inj heq).2]
    exact ⟨e.1, (OrderedMap.get?_eq_some_iff source).mpr he, ha'⟩
  · rcases h with ⟨id, hget, ha⟩
    exact ⟨(id, c), (OrderedMap.get?_eq_some_iff source).mp hget,
      Option.map_eq_some_iff.mpr ⟨a, ha, rfl⟩⟩
  · show (!c.value.isEmpty || c.isFormula) = true ↔ _
    rw [Bool.or_eq_true, Bool.not_eq_true', ← Bool.not_eq_true, String.isEmpty_iff]

/-- A tidied cell with a text or a formula is not empty. -/
theorem isEmpty_tidy_entry {c : Cell} (h : c.value ≠ "" ∨ c.isFormula = true) :
    c.tidy.entry.isEmpty = false := by
  have hformula : c.tidy.entry.isFormula = c.isFormula := congrArg Option.isSome c.formula?_tidy
  have hvalue : c.tidy.entry.value = c.value := rfl
  rw [Cell.isEmpty, hformula, hvalue]
  rcases h with h | h
  · rw [Bool.eq_false_iff.mpr fun hempty => h (String.isEmpty_iff.mp hempty)]
    rfl
  · rw [h, Bool.not_true, Bool.and_false, Bool.false_and]

/-- A field puts back the cell that it was written for. -/
theorem addField_of_mem_listed (hids : ∀ id ∈ source.keys, Address.IsCanonical id) {a : Address}
    {c : Cell} (h : (a, c) ∈ source.listed) (cells : Cells) :
    addField a.row.toNat cells (String.ofList (Column.letters a.col.toNat), c.toEntry)
      = .ok (source.restore cells
          (String.ofList (Column.letters a.col.toNat) ++ toString (a.row.toNat + 1))) := by
  rcases mem_listed.mp h with ⟨⟨id, hget, ha⟩, hfilled⟩
  -- Label and row make up the canonical name of the address, which is the name of the
  -- cell.
  have hid : String.ofList (Column.letters a.col.toNat) ++ toString (a.row.toNat + 1) = id := by
    rw [Address.ofList_letters_append]
    exact (Address.eq_cellId_of_isCanonical
      (hids id ((OrderedMap.mem_keys_iff source).mpr ⟨c, hget⟩)) ha).symm
  rw [addField]
  simp only [Column.index?_letters, hid, Cell.ofEntry_toEntry]
  rw [restore_of_get? hget]
  show Except.ok (if c.tidy.entry.isEmpty then cells else cells.insert id c.tidy.entry) = _
  rw [isEmpty_tidy_entry hfilled]
  rfl

/-- The cells that a document lists in one row. -/
def rowOf (source : Cells) (row : Nat) : List (Address × Cell) :=
  source.listed.filter fun p => p.1.row = (row : Int)

/-- The names under which the fields of a row are read. -/
def rowIds (source : Cells) (row : Nat) : List String :=
  (rowFields (source.rowOf row)).map fun field => field.1 ++ toString (row + 1)

/-- A field of a row is that of one of the cells listed. -/
theorem exists_of_mem_rowFields {cells : List (Address × Cell)} {field : String × Json}
    (h : field ∈ rowFields cells) :
    ∃ a c, (a, c) ∈ cells ∧ field = (String.ofList (Column.letters a.col.toNat), c.toEntry) := by
  have hget := (OrderedMap.get?_eq_some_iff _).mpr (show (field.1, field.2) ∈ _ from h)
  rcases List.mem_map.mp (OrderedMap.mem_of_get?_ofList hget) with ⟨p, hp, heq⟩
  exact ⟨p.1, p.2, hp, heq.symm⟩

/-- Each of the cells listed has a label among the fields. -/
theorem mem_labels_of_mem {cells : List (Address × Cell)} {a : Address} {c : Cell}
    (h : (a, c) ∈ cells) :
    String.ofList (Column.letters a.col.toNat) ∈ (rowFields cells).map Prod.fst := by
  refine OrderedMap.mem_keys_ofList.mpr ?_
  rw [List.map_map]
  exact List.mem_map.mpr ⟨(a, c), h, rfl⟩

/-- Fields that each put back a cell do so one after the other. -/
theorem foldlM_addField {fields : List (String × Json)} {row : Nat}
    (h : ∀ field ∈ fields, ∀ cells,
      addField row cells field = .ok (source.restore cells (field.1 ++ toString (row + 1))))
    (cells : Cells) :
    fields.foldlM (addField row) cells
      = .ok ((fields.map fun field => field.1 ++ toString (row + 1)).foldl source.restore
          cells) := by
  induction fields generalizing cells with
  | nil => rfl
  | cons field fields ih =>
      rw [List.foldlM_cons, h field List.mem_cons_self]
      exact ih (fun field' hmem => h field' (List.mem_cons_of_mem _ hmem)) _

/-- A row puts back its cells. -/
theorem addRow_rowOf (hids : ∀ id ∈ source.keys, Address.IsCanonical id) (row : Nat)
    (cells : Cells) :
    addRow cells (.object (rowFields (source.rowOf row)), row)
      = .ok ((source.rowIds row).foldl source.restore cells) := by
  refine foldlM_addField (fun field hmem cells => ?_) cells
  -- Every field was written for a cell in this very row.
  rcases exists_of_mem_rowFields hmem with ⟨a, c, hp, rfl⟩
  rcases List.mem_filter.mp hp with ⟨hlisted, hrow⟩
  have hnat : a.row.toNat = row := by
    rw [of_decide_eq_true hrow, Int.toNat_natCast]
  rw [← hnat]
  exact addField_of_mem_listed hids hlisted cells

/-- The document has a row for each number up to that of the last cell listed. -/
theorem exists_toRows (source : Cells) :
    ∃ count,
      source.toRows
        = (List.range count).map (fun row => .object (rowFields (source.rowOf row))) ∧
      ∀ p ∈ source.listed, p.1.row.toNat < count := by
  let step : Nat → Address × Cell → Nat := fun n p => max n (p.1.row.toNat + 1)
  have hcount : ∀ (cells : List (Address × Cell)) (n : Nat),
      n ≤ cells.foldl step n ∧ ∀ p ∈ cells, p.1.row.toNat < cells.foldl step n := by
    intro cells
    induction cells with
    | nil => exact fun n => ⟨Nat.le_refl n, List.forall_mem_nil _⟩
    | cons p cells ih =>
        intro n
        rcases ih (step n p) with ⟨hle, hlt⟩
        refine ⟨(Nat.le_max_left _ _).trans hle, List.forall_mem_cons.mpr ⟨?_, hlt⟩⟩
        exact Nat.lt_of_lt_of_le (Nat.lt_succ_self _) ((Nat.le_max_right _ _).trans hle)
  exact ⟨source.listed.foldl step 0, rfl, (hcount source.listed 0).2⟩

/-- The rows of a document put back all cells that were listed. -/
theorem exists_ofRows_toRows (hids : ∀ id ∈ source.keys, Address.IsCanonical id)
    (hfilled : ∀ e ∈ source.entries, e.2.value ≠ "" ∨ e.2.isFormula = true) :
    ∃ ids : List String, ofRows source.toRows = .ok (ids.foldl source.restore ∅) ∧
      ∀ id ∈ source.keys, id ∈ ids := by
  rcases source.exists_toRows with ⟨count, hrows, hcount⟩
  have hindexed : source.toRows.zipIdx
      = (List.range count).map fun row => (.object (rowFields (source.rowOf row)), row) := by
    rw [hrows]
    refine List.ext_getElem (by simp only [List.length_zipIdx, List.length_map]) fun i _ _ => ?_
    simp only [List.getElem_zipIdx, List.getElem_map, List.getElem_range, Nat.zero_add]
  refine ⟨(List.range count).flatMap source.rowIds, ?_, fun id hid => ?_⟩
  · rw [ofRows, hindexed, List.foldlM_map, List.foldl_flatMap]
    have hstep : (fun cells row => addRow cells (.object (rowFields (source.rowOf row)), row))
        = fun cells row => pure ((source.rowIds row).foldl source.restore cells) :=
      funext fun cells => funext fun row => addRow_rowOf hids row cells
    rw [hstep, List.foldlM_pure]
    rfl
  · -- The cell is listed, so its row is there, and in it a field with its label.
    rcases (OrderedMap.mem_keys_iff source).mp hid with ⟨c, hget⟩
    rcases Address.exists_toId_of_isCanonical (hids id hid) with ⟨a, ha, _⟩
    have hlisted : (a, c) ∈ source.listed := mem_listed.mpr
      ⟨⟨id, hget, ha⟩, hfilled (id, c) ((OrderedMap.get?_eq_some_iff source).mp hget)⟩
    have hrow : (a, c) ∈ source.rowOf a.row.toNat :=
      List.mem_filter.mpr ⟨hlisted, decide_eq_true
        (Int.toNat_of_nonneg (Address.nonneg_of_ofId? ha).1).symm⟩
    refine List.mem_flatMap.mpr ⟨a.row.toNat, List.mem_range.mpr (hcount _ hlisted), ?_⟩
    rcases List.mem_map.mp (mem_labels_of_mem hrow) with ⟨field, hfield, hlabel⟩
    refine List.mem_map.mpr ⟨field, hfield, ?_⟩
    rw [hlabel, Address.ofList_letters_append]
    exact (Address.eq_cellId_of_isCanonical (hids id hid) ha).symm

/-- The cells of a document, without the values found for them. -/
theorem exists_ofRows (hids : ∀ id ∈ source.keys, Address.IsCanonical id)
    (hfilled : ∀ e ∈ source.entries, e.2.value ≠ "" ∨ e.2.isFormula = true) :
    ∃ cells, ofRows source.toRows = .ok cells ∧
      ∀ id, cells.get? id = (source.get? id).map fun c => c.tidy.entry := by
  rcases exists_ofRows_toRows hids hfilled with ⟨ids, hrows, hall⟩
  refine ⟨_, hrows, fun id => ?_⟩
  rw [get?_foldl_restore]
  by_cases hid : id ∈ ids
  · rw [if_pos hid]
    exact Option.or_none
  · have hnone := (OrderedMap.get?_eq_none_iff source id).mpr fun hkey => hid (hall id hkey)
    rw [if_neg hid, hnone]
    rfl

/-- Cells that were recomputed and cells with the same entries, apart from what says
    nothing, have the same values after the latter are recomputed. -/
theorem get?_recompute_of_tidy {source cells : Cells} (hcovered : source.Covered)
    (hrecomputed : ∃ raw : Cells, source = raw.recompute .builtins)
    (hcells : ∀ id, cells.get? id = (source.get? id).map fun c => c.tidy.entry) (id : String) :
    (cells.recompute .builtins).get? id = (source.get? id).map Cell.tidy := by
  -- To recompute what was recomputed changes nothing, so the values that are found for
  -- what was read are those that were there.
  have hself : source.recompute .builtins = source := by
    rcases hrecomputed with ⟨raw, rfl⟩
    exact recompute_recompute .builtins
      ((sameEntries_recompute .builtins raw).sameInput.covered hcovered)
  have hinput : SameInput source cells := by
    intro id
    rw [hcells, Option.map_map]
    congr 1
    exact funext fun c => c.input_tidy.symm
  have htidy : ∀ id, (source.mapValues fun _ c => c.tidy).get? id
      = (source.get? id).map Cell.tidy := fun id => OrderedMap.get?_mapValues _ _ id
  rw [← htidy]
  refine get?_eq_of_entry ?_ ?_
  · rw [(sameEntries_recompute .builtins cells).entry, hcells, htidy, Option.map_map,
      Option.map_map]
    rfl
  · rw [← hinput.computedAt_eq .builtins hcovered, hself, computedAt, computedAt, htidy,
      Option.bind_map]
    rfl

end Cells

namespace Sheet

/-- Reading a document is reading its rows. -/
theorem ofDocument_toDocument_eq {sheet : Sheet} (hrows : 0 < sheet.rowCount)
    (hcolumns : 0 < sheet.columnCount) (time : String) :
    ofDocument (sheet.toDocument time)
      = (Cells.ofRows sheet.cells.toRows).bind fun cells =>
          .ok (recompute .builtins
            { cells, rowCount := sheet.rowCount, columnCount := sheet.columnCount }) := by
  have hsize : ∀ n default : Int, 0 < n → sizeOf (some (.number (.whole n))) default = n :=
    fun n default hn => if_pos hn
  have hread : ofDocument (sheet.toDocument time)
      = (Cells.ofRows sheet.cells.toRows).bind fun cells =>
          .ok (recompute .builtins
            { cells
              rowCount := sizeOf (some (.number (.whole sheet.rowCount))) empty.rowCount
              columnCount :=
                sizeOf (some (.number (.whole sheet.columnCount))) empty.columnCount }) := rfl
  rw [hread, hsize _ _ hrows, hsize _ _ hcolumns]

/-- A document gives the sheet that it was written for: the same size, and under
    each name the same cell, without a formula or a style that says nothing. -/
theorem ofDocument_toDocument {sheet : Sheet}
    (hrecomputed : ∃ raw : Sheet, sheet = raw.recompute .builtins) (hregular : sheet.IsRegular)
    (hids : ∀ id ∈ sheet.cells.keys, Address.IsCanonical id) (hrows : 0 < sheet.rowCount)
    (hcolumns : 0 < sheet.columnCount)
    (hfilled : ∀ e ∈ sheet.cells.entries, e.2.value ≠ "" ∨ e.2.isFormula = true) (time : String) :
    ∃ read, ofDocument (sheet.toDocument time) = .ok read ∧
      read.rowCount = sheet.rowCount ∧ read.columnCount = sheet.columnCount ∧
      ∀ id, read.cells.get? id = (sheet.cells.get? id).map Cell.tidy := by
  rcases Cells.exists_ofRows hids hfilled with ⟨cells, hcells, hget⟩
  have hraw : ∃ raw : Cells, sheet.cells = raw.recompute .builtins := by
    rcases hrecomputed with ⟨raw, rfl⟩
    exact ⟨raw.cells, rfl⟩
  rw [ofDocument_toDocument_eq hrows hcolumns, hcells]
  exact ⟨_, rfl, rfl, rfl, Cells.get?_recompute_of_tidy hregular.covered hraw hget⟩

/-- Rows and columns without cells, a label of two letters, a cycle and a style. -/
theorem ofDocument_toDocument_gaps :
    let raw : Sheet := {
      cells := .ofList [("C5", { formula := some "=SUM(A1:B2)*2" }), ("A1", { value := "2.5" }),
        ("AB1", { value := "total", style := some (Style.empty.set .bold (.bool true)) }),
        ("B9", { formula := some "=B9", style := some .empty })]
      rowCount := 12 }
    let sheet := raw.recompute .builtins
    sheet.IsRegular ∧ (∀ id ∈ sheet.cells.keys, Address.IsCanonical id) ∧ 0 < sheet.rowCount ∧
      0 < sheet.columnCount ∧ (∀ e ∈ sheet.cells.entries, e.2.value ≠ "" ∨ e.2.isFormula = true) ∧
      ∃ read, ofDocument (sheet.toDocument "2024-05-17T08:30:00.000Z") = .ok read ∧
        read.rowCount = sheet.rowCount ∧ read.columnCount = sheet.columnCount ∧
        ∀ id, read.cells.get? id = (sheet.cells.get? id).map Cell.tidy := by
  intro raw sheet
  have hregular : sheet.IsRegular := by decide +kernel
  have hids : ∀ id ∈ sheet.cells.keys, Address.IsCanonical id := by decide +kernel
  have hfilled : ∀ e ∈ sheet.cells.entries, e.2.value ≠ "" ∨ e.2.isFormula = true := by
    decide +kernel
  exact ⟨hregular, hids, by decide, by decide, hfilled,
    ofDocument_toDocument ⟨raw, rfl⟩ hregular hids (by decide) (by decide) hfilled _⟩

/-- A formula without text is not read back. -/
theorem not_ofDocument_toDocument_self :
    ¬ ∀ sheet : Sheet, (∃ raw : Sheet, sheet = raw.recompute .builtins) → sheet.IsRegular →
      (∀ id ∈ sheet.cells.keys, Address.IsCanonical id) → 0 < sheet.rowCount →
      0 < sheet.columnCount →
      (∀ e ∈ sheet.cells.entries, e.2.value ≠ "" ∨ e.2.isFormula = true) →
      ∀ time, ∃ read, ofDocument (sheet.toDocument time) = .ok read ∧
        read.rowCount = sheet.rowCount ∧ read.columnCount = sheet.columnCount ∧
        ∀ id, read.cells.get? id = (sheet.cells.get? id).map fun c =>
          { c with style := c.style.filter fun s => !s.isEmpty } := by
  intro hself
  let raw : Sheet := { cells := .ofList [("A1", { value := "x", formula := some "" })] }
  let sheet := raw.recompute .builtins
  have hregular : sheet.IsRegular := by decide +kernel
  have hids : ∀ id ∈ sheet.cells.keys, Address.IsCanonical id := by decide +kernel
  have hfilled : ∀ e ∈ sheet.cells.entries, e.2.value ≠ "" ∨ e.2.isFormula = true := by
    decide +kernel
  rcases hself sheet ⟨raw, rfl⟩ hregular hids (by decide) (by decide) hfilled "" with
    ⟨read, hread, _, _, hsame⟩
  rcases Cells.exists_ofRows hids hfilled with ⟨cells, hcells, hget⟩
  rw [ofDocument_toDocument_eq (by decide) (by decide), hcells] at hread
  -- What is read is tidied, and has no formula.
  have htidy := Cells.get?_recompute_of_tidy hregular.covered ⟨raw.cells, rfl⟩ hget "A1"
  have hcell : read.cells = cells.recompute .builtins :=
    (congrArg Sheet.cells (Except.ok.inj hread)).symm
  rw [← hcell, hsame] at htidy
  exact absurd (congrArg (fun c => c.bind Cell.formula) htidy) (by decide +kernel)

end Sheet

end Spreadsheet
