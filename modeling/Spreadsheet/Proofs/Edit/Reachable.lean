import Spreadsheet.Document
import Spreadsheet.Proofs.Document.RoundTrip
import Spreadsheet.Proofs.Edit.Cell
import Spreadsheet.Proofs.Recompute.Values

/-!
# Sheets That Can Be Reached

What holds of a sheet whatever was done to it.

A sheet starts empty or is read from a document, and from then on it is edited,
recomputed, written and read again (`Sheet.Reachable`). All of these keep it sound
(`Sheet.IsSound`): its cells have canonical names, none of them is empty, each has a
value, and the sizes are positive.

Only recomputation gives values, so the invariant comes in two parts. What an edit or
a document leaves behind, before the values are found, is well formed
(`Sheet.IsWellFormed`): it says nothing about cells without a value. Recomputation
makes of it a sound sheet, and a sound sheet is well formed. No regular formulas are
needed for this, nor the builtin functions.

## Main definitions

* `Cells.AreWellFormed`, `Sheet.IsWellFormed`: What holds before the values are found.
* `Sheet.IsSound`: What holds after it.
* `Sheet.Reachable`: The sheets that come about by edits and documents.

## Theorems

* `Cells.AreWellFormed.put`: Replacing a cell keeps cells well formed.
* `Cells.areWellFormed_ofRows`: The cells of a document are well formed.
* `Sheet.IsWellFormed.recompute`: Recomputation gives a sound sheet.
* `Sheet.Reachable.isSound`: Every sheet that can be reached is sound.
-/

namespace Spreadsheet

/-- What every step keeps holds after the last one, if none of them fails. -/
theorem Cells.of_foldlM_ok {α β ε : Type} {step : β → α → Except ε β} {P : β → Prop}
    (hstep : ∀ {b a b'}, P b → step b a = .ok b' → P b') {items : List α} {b b' : β} (hb : P b)
    (h : items.foldlM step b = .ok b') : P b' := by
  induction items generalizing b with
  | nil =>
      rw [← Except.ok.inj h]
      exact hb
  | cons a items ih =>
      rw [List.foldlM_cons] at h
      rcases exists_of_bind h with ⟨next, hnext, hrest⟩
      exact ih (hstep hb hnext) hrest

namespace Cells

/-- The cells have canonical names, none is empty, and no value is a whole double. -/
structure AreWellFormed (cells : Cells) : Prop where
  /-- Every name is the one that is written for its position. -/
  canonical : ∀ id ∈ cells.keys, Address.IsCanonical id
  /-- No cell could be left out. -/
  nonempty : ∀ id c, cells.get? id = some c → c.isEmpty = false
  /-- The values that were found are normal. -/
  normal : cells.AreNormal

variable {cells cells' : Cells}

theorem areWellFormed_empty : AreWellFormed ∅ where
  canonical := fun _ hid => by cases hid
  nonempty := fun _ _ hget => by cases hget
  normal := fun _ _ hv => by cases hv

/-- Replacing a cell keeps cells well formed. -/
theorem AreWellFormed.put (h : cells.AreWellFormed) {id : String} (hid : Address.IsCanonical id)
    {c : Cell} (hc : ∀ v, c.computed = some v → v.IsNormal) : (cells.put id c).AreWellFormed := by
  -- What is found afterwards is the new cell, if it is not empty, or was there before.
  have hcases : ∀ id' c', (cells.put id c).get? id' = some c' →
      (id' = id ∧ c' = c ∧ c.isEmpty = false) ∨ cells.get? id' = some c' := by
    intro id' c' hget
    by_cases heq : id' = id
    · rw [heq, get?_put_self] at hget
      rcases Option.ite_none_left_eq_some.mp hget with ⟨hempty, hcell⟩
      exact Or.inl ⟨heq, (Option.some.inj hcell).symm, (Bool.not_eq_true _).mp hempty⟩
    · rw [get?_put_of_ne cells c heq] at hget
      exact Or.inr hget
  constructor
  · intro id' hkey
    rcases (OrderedMap.mem_keys_iff _).mp hkey with ⟨c', hget⟩
    rcases hcases id' c' hget with ⟨rfl, _⟩ | hget
    · exact hid
    · exact h.canonical id' ((OrderedMap.mem_keys_iff _).mpr ⟨c', hget⟩)
  · intro id' c' hget
    rcases hcases id' c' hget with ⟨_, rfl, hempty⟩ | hget
    · exact hempty
    · exact h.nonempty id' c' hget
  · intro id' v hv
    rcases Option.bind_eq_some_iff.mp hv with ⟨c', hget, hcomputed⟩
    rcases hcases id' c' hget with ⟨_, rfl, _⟩ | hget
    · exact hc v hcomputed
    · exact h.normal id' v (Option.bind_eq_some_iff.mpr ⟨c', hget, hcomputed⟩)

/-- What holds of the entries holds after the values are found. -/
theorem AreWellFormed.recompute (h : cells.AreWellFormed) (functions : Registry) :
    (cells.recompute functions).AreWellFormed where
  canonical := fun id hid =>
    h.canonical id (by rwa [(sameEntries_recompute functions cells).keys] at hid)
  nonempty := fun id => (sameEntries_recompute functions cells).isEmpty_eq_false (h.nonempty id)
  normal := (isSettled_recompute functions h.normal).normal

theorem computed_ofEntry {id : String} {entry : Json} {c : Cell}
    (h : Cell.ofEntry id entry = .ok c) : c.computed = none := by
  cases entry with
  | object fields =>
      rcases exists_of_bind h with ⟨formula, _, h⟩
      rcases exists_of_bind h with ⟨style, _, h⟩
      rw [← Except.ok.inj h]
  | _ => cases h

/-- A field of a row adds a cell under a canonical name, or none. -/
theorem AreWellFormed.addField (h : cells.AreWellFormed) {index : Nat} {field : String × Json}
    (hcells : addField index cells field = .ok cells') : cells'.AreWellFormed := by
  rw [Cells.addField] at hcells
  cases hcol : Column.index? field.1 with
  | none =>
      rw [hcol] at hcells
      cases hcells
  | some col =>
      rw [hcol] at hcells
      rcases exists_of_bind hcells with ⟨c, hentry, hresult⟩
      have hid : Address.IsCanonical (field.1 ++ toString (index + 1)) := by
        rw [Column.eq_letters_of_index? hcol, Address.ofList_letters_append]
        exact Address.isCanonical_cellId index col
      rw [← Except.ok.inj hresult]
      split
      · exact h
      · rename_i hempty
        -- A cell that was just read has no value yet.
        have hput := h.put hid (c := c) fun v hv => by
          rw [computed_ofEntry hentry] at hv
          cases hv
        rwa [Cells.put, if_neg hempty] at hput

theorem AreWellFormed.addRow (h : cells.AreWellFormed) {row : Json × Nat}
    (hcells : addRow cells row = .ok cells') : cells'.AreWellFormed := by
  rcases row with ⟨json, index⟩
  cases json with
  | object fields => exact of_foldlM_ok (fun h hstep => h.addField hstep) h hcells
  | _ => cases hcells

/-- The cells of a document are well formed. -/
theorem areWellFormed_ofRows {rows : List Json} (h : ofRows rows = .ok cells) :
    cells.AreWellFormed :=
  of_foldlM_ok (fun h hstep => h.addRow hstep) areWellFormed_empty h

end Cells

namespace Sheet

/-- The cells are well formed, and the sizes are positive. -/
structure IsWellFormed (sheet : Sheet) : Prop where
  /-- Nothing is known about cells without values. -/
  cells : sheet.cells.AreWellFormed
  rowCount_pos : 0 < sheet.rowCount
  columnCount_pos : 0 < sheet.columnCount
  columnWidth_pos : ∀ col width, sheet.columnWidths.get? col = some width → 0 < width

/-- What holds of every sheet that a user can get at. -/
structure IsSound (sheet : Sheet) : Prop where
  /-- Every name is the one that is written for its position. -/
  canonical : ∀ id ∈ sheet.cells.keys, Address.IsCanonical id
  /-- No cell could be left out. -/
  nonempty : ∀ id c, sheet.cells.get? id = some c → c.isEmpty = false
  /-- Every cell has a value, and none is a whole double. -/
  filled : ∀ id c, sheet.cells.get? id = some c → ∃ v, c.computed = some v ∧ v.IsNormal
  /-- Literals have the values that they spell. -/
  literal : ∀ id c, sheet.cells.get? id = some c → c.isFormula = false →
    c.computed = some (.ofLiteral c.value)
  rowCount_pos : 0 < sheet.rowCount
  columnCount_pos : 0 < sheet.columnCount
  columnWidth_pos : ∀ col width, sheet.columnWidths.get? col = some width → 0 < width

variable {sheet sheet' : Sheet}

theorem IsSound.isWellFormed (h : sheet.IsSound) : sheet.IsWellFormed where
  cells := by
    refine ⟨h.canonical, h.nonempty, fun id v hv => ?_⟩
    rcases Option.bind_eq_some_iff.mp hv with ⟨c, hget, hcomputed⟩
    rcases h.filled id c hget with ⟨w, hw, hnormal⟩
    rw [hcomputed] at hw
    rw [Option.some.inj hw]
    exact hnormal
  rowCount_pos := h.rowCount_pos
  columnCount_pos := h.columnCount_pos
  columnWidth_pos := h.columnWidth_pos

/-- Recomputation gives a sound sheet. -/
theorem IsWellFormed.recompute (h : sheet.IsWellFormed) (functions : Registry) :
    (sheet.recompute functions).IsSound := by
  have hcells := h.cells.recompute functions
  have hsettled := Cells.isSettled_recompute functions h.cells.normal
  refine ⟨hcells.canonical, hcells.nonempty, fun id c hget => ?_, hsettled.literal, h.rowCount_pos,
    h.columnCount_pos, h.columnWidth_pos⟩
  rcases hsettled.filled id c hget with ⟨v, hv⟩
  exact ⟨v, hv, hsettled.normal id v (Option.bind_eq_some_iff.mpr ⟨c, hget, hv⟩)⟩

theorem isSound_empty : Sheet.empty.IsSound where
  canonical := fun _ hid => by cases hid
  nonempty := fun _ _ hget => by cases hget
  filled := fun _ _ hget => by cases hget
  literal := fun _ _ hget => by cases hget
  rowCount_pos := by decide
  columnCount_pos := by decide
  columnWidth_pos := fun _ _ hwidth => by cases hwidth

/-- The sizes that are read from a document are positive. -/
theorem sizeOf_pos (entry : Option Json) {default : Int} (h : 0 < default) :
    0 < sizeOf entry default := by
  unfold Sheet.sizeOf
  split
  · split
    · assumption
    · exact h
  · exact h

theorem isSound_ofDocument {document : Json} (h : ofDocument document = .ok sheet) :
    sheet.IsSound := by
  unfold ofDocument at h
  split at h
  · split at h
    -- A size that is not positive is not taken from the metadata.
    · rcases exists_of_bind h with ⟨metadata, _, h⟩
      rcases exists_of_bind h with ⟨cells, hcells, h⟩
      rw [← Except.ok.inj h]
      refine IsWellFormed.recompute ?_ .builtins
      exact ⟨Cells.areWellFormed_ofRows hcells, sizeOf_pos _ (by decide), sizeOf_pos _ (by decide),
        isSound_empty.columnWidth_pos⟩
    · cases h
  · cases h

/-- An edit of a cell keeps a sheet sound. -/
theorem IsSound.edit (h : sheet.IsSound) (edit : CellEdit) (hedit : edit.apply sheet = .ok sheet') :
    sheet'.IsSound := by
  rcases CellEdit.apply_eq_ok_iff.mp hedit with ⟨_, id, hid, rfl⟩
  have hwell := h.isWellFormed
  have hedited : IsWellFormed { sheet with cells := edit.onCells id sheet.cells } := by
    refine ⟨?_, hwell.rowCount_pos, hwell.columnCount_pos, hwell.columnWidth_pos⟩
    refine hwell.cells.put (Address.isCanonical_of_toId hid) fun v hv => ?_
    -- The edit itself gives no value, so it is one that was there.
    rcases edit.computed_cell (sheet.cells.get? id) with hnone | hbefore
    · rw [hnone] at hv
      cases hv
    · exact hwell.cells.normal id v (hbefore.symm.trans hv)
  exact hedited.recompute .builtins

theorem IsSound.resizeColumn (h : sheet.IsSound) {col width : Int}
    (hresize : sheet.resizeColumn col width = .ok sheet') : sheet'.IsSound := by
  rw [Sheet.resizeColumn] at hresize
  split at hresize
  · cases hresize
  · rename_i hwidth
    rw [← Except.ok.inj hresize]
    refine ⟨h.canonical, h.nonempty, h.filled, h.literal, h.rowCount_pos, h.columnCount_pos,
      fun col' width' hget => ?_⟩
    -- Only one width is new, and it was not refused.
    by_cases hcol : col' = col
    · rw [hcol] at hget
      rw [← Option.some.inj ((OrderedMap.get?_insert_self _ _ _).symm.trans hget)]
      exact Int.not_le.mp hwidth
    · exact h.columnWidth_pos col' width' ((OrderedMap.get?_insert_of_ne _ _ hcol).symm.trans hget)

/-- The sheets that come about by edits and documents. -/
inductive Reachable : Sheet → Prop where
  | empty : Reachable .empty
  | document {document : Json} {sheet : Sheet} (read : ofDocument document = .ok sheet) :
    Reachable sheet
  | commitEdit {sheet sheet' : Sheet} {a : Address} {text : String} (reachable : Reachable sheet)
    (edit : sheet.commitEdit a text = .ok sheet') : Reachable sheet'
  | applyStyle {sheet sheet' : Sheet} {a : Address} {changes : List (String × Json)}
    (reachable : Reachable sheet) (edit : sheet.applyStyle a changes = .ok sheet') :
    Reachable sheet'
  | resizeColumn {sheet sheet' : Sheet} {col width : Int} (reachable : Reachable sheet)
    (edit : sheet.resizeColumn col width = .ok sheet') : Reachable sheet'
  /-- The values are found anew, with any functions. -/
  | recompute {sheet : Sheet} (reachable : Reachable sheet) (functions : Registry) :
    Reachable (sheet.recompute functions)
  /-- The document of the sheet is read again. -/
  | reopen {sheet sheet' : Sheet} {time : String} (reachable : Reachable sheet)
    (read : ofDocument (sheet.toDocument time) = .ok sheet') : Reachable sheet'

/-- Every sheet that can be reached is sound. -/
theorem Reachable.isSound (h : sheet.Reachable) : sheet.IsSound := by
  induction h with
  | empty => exact isSound_empty
  | document read => exact isSound_ofDocument read
  | commitEdit _ edit ih => exact ih.edit (.type _ _) edit
  | applyStyle _ edit ih => exact ih.edit (.restyle _ _) edit
  | resizeColumn _ edit ih => exact ih.resizeColumn edit
  | recompute _ functions ih => exact ih.isWellFormed.recompute functions
  | reopen _ read => exact isSound_ofDocument read

/-- A formula that reads itself, typed into the empty sheet. -/
theorem Reachable.isSound_cycle :
    let sheet : Sheet := { cells := (∅ : Cells).putText "A1" "=A1+1" }
    (sheet.recompute .builtins).Reachable ∧ (sheet.recompute .builtins).IsSound := by
  intro sheet
  have hreachable : (sheet.recompute .builtins).Reachable :=
    .commitEdit (a := ⟨0, 0⟩) .empty (commitEdit_eq_ok_iff.mpr ⟨"A1", by decide +kernel, rfl⟩)
  exact ⟨hreachable, hreachable.isSound⟩

end Sheet

end Spreadsheet
