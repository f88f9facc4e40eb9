import Spreadsheet.Edit
import Spreadsheet.Proofs.Address.Codec
import Spreadsheet.Proofs.Evaluate.Errors
import Spreadsheet.Proofs.Recompute.Entries

/-!
# Edits of One Cell

What typing a text and changing a style have in common.

Both replace the cell at a position by another one, which depends on nothing but the
cell that was there and the edit (`CellEdit.cell`), drop it if it is empty, and find
all values anew. They differ in what they can be refused for: a style has only the
attributes that have a name, and a text is never refused. So whatever is to be said
of both is said of `Cells.put` and of the cell that is put.

## Main definitions

* `Cell.restyled`: A cell with attributes changed.
* `CellEdit`: A text typed into a cell, or attributes of it changed.
* `CellEdit.apply`: The sheet after an edit.
* `CellEdit.cell`, `CellEdit.onCells`: The cell after an edit, and the cells.
* `CellEdit.IsRegular`: An edit that types no formula, or a regular one.

## Theorems

* `CellEdit.apply_eq_ok_iff`: When an edit succeeds, and what it gives.
* `CellEdit.covered_onCells`: Regular edits keep the formulas covered.
-/

namespace Spreadsheet

theorem EditError.mapError_eq_ok_iff {ε α : Type} {e : Except ε α} {f : ε → EditError} {x : α} :
    e.mapError f = .ok x ↔ e = .ok x := by
  cases e with
  | error _ => exact iff_of_false (fun h => by cases h) fun h => by cases h
  | ok _ => exact ⟨fun h => congrArg _ (Except.ok.inj h), fun h => congrArg _ (Except.ok.inj h)⟩

/-- A style can be changed exactly if all names are those of attributes. -/
theorem Style.merge_eq_ok_iff {s t : Style} {changes : List (String × Json)} :
    s.merge changes = .ok t ↔
      (∀ change ∈ changes, (Attribute.ofName? change.1).isSome = true) ∧
        t = s.setAll Attribute.ofName? changes := by
  rw [merge]
  simp only [List.isEmpty_iff, List.filter_eq_nil_iff, List.forall_mem_map,
    Option.isNone_iff_eq_none]
  by_cases hknown : ∀ change ∈ changes, ¬ Attribute.ofName? change.1 = none
  · rw [if_pos hknown, Except.ok.injEq, eq_comm, and_iff_right]
    exact fun change hchange => Option.isSome_iff_ne_none.mpr (hknown change hchange)
  · rw [if_neg hknown]
    refine ⟨fun h => (by cases h), fun h => absurd (fun change hchange => ?_) hknown⟩
    exact Option.isSome_iff_ne_none.mp (h.1 change hchange)

namespace Cell

/-- The cell with attributes changed. Where there is no cell, it is one without
    anything in it. -/
def restyled (changes : List (String × Json)) (c : Option Cell) : Cell :=
  let cell := c.getD {}
  { cell with style := some ((cell.style.getD .empty).setAll Attribute.ofName? changes) }

end Cell

theorem Cells.restyle_eq_ok_iff {cells cells' : Cells} {id : String}
    {changes : List (String × Json)} :
    cells.restyle id changes = .ok cells' ↔
      (∀ change ∈ changes, (Attribute.ofName? change.1).isSome = true) ∧
        cells' = cells.put id (Cell.restyled changes (cells.get? id)) := by
  rw [restyle]
  constructor
  · intro h
    rcases exists_of_bind h with ⟨style, hstyle, hcells⟩
    rcases Style.merge_eq_ok_iff.mp hstyle with ⟨hknown, rfl⟩
    exact ⟨hknown, (Except.ok.inj hcells).symm⟩
  · rintro ⟨hknown, rfl⟩
    rw [Style.merge_eq_ok_iff.mpr ⟨hknown, rfl⟩]
    rfl

namespace Sheet

variable {sheet sheet' : Sheet} {a : Address}

/-- Typing succeeds exactly if the position has a name. -/
theorem commitEdit_eq_ok_iff {text : String} :
    sheet.commitEdit a text = .ok sheet' ↔ ∃ id, a.toId = .ok id ∧
      sheet' = { sheet with cells := sheet.cells.putText id text }.recompute .builtins := by
  constructor
  · intro h
    rcases exists_of_bind h with ⟨id, hid, hsheet⟩
    exact ⟨id, EditError.mapError_eq_ok_iff.mp hid, (Except.ok.inj hsheet).symm⟩
  · rintro ⟨id, hid, rfl⟩
    rw [commitEdit, editId, EditError.mapError_eq_ok_iff.mpr hid]
    rfl

/-- Changing a style succeeds exactly if the position has a name and all attributes
    have one. -/
theorem applyStyle_eq_ok_iff {changes : List (String × Json)} :
    sheet.applyStyle a changes = .ok sheet' ↔
      (∀ change ∈ changes, (Attribute.ofName? change.1).isSome = true) ∧
        ∃ id, a.toId = .ok id ∧ sheet' = { sheet with
          cells := sheet.cells.put id (Cell.restyled changes (sheet.cells.get? id)) }.recompute
            .builtins := by
  constructor
  · intro h
    rcases exists_of_bind h with ⟨id, hid, h⟩
    rcases exists_of_bind h with ⟨cells, hcells, hsheet⟩
    rcases Cells.restyle_eq_ok_iff.mp (EditError.mapError_eq_ok_iff.mp hcells) with ⟨hknown, rfl⟩
    exact ⟨hknown, id, EditError.mapError_eq_ok_iff.mp hid, (Except.ok.inj hsheet).symm⟩
  · rintro ⟨hknown, id, hid, rfl⟩
    have hcells : sheet.cells.restyle id changes = .ok _ :=
      Cells.restyle_eq_ok_iff.mpr ⟨hknown, rfl⟩
    rw [applyStyle, editId, EditError.mapError_eq_ok_iff.mpr hid]
    show ((sheet.cells.restyle id changes).mapError EditError.style).bind _ = _
    rw [EditError.mapError_eq_ok_iff.mpr hcells]
    rfl

end Sheet

/-- An edit of one cell. -/
inductive CellEdit where
  /-- A text is typed into the cell. -/
  | type (a : Address) (text : String)
  /-- Attributes of the cell are changed by name. -/
  | restyle (a : Address) (changes : List (String × Json))

namespace CellEdit

/-- The position of the cell. -/
def address : CellEdit → Address
  | type a _ => a
  | restyle a _ => a

/-- The sheet after the edit. -/
def apply (sheet : Sheet) : CellEdit → Except EditError Sheet
  | type a text => sheet.commitEdit a text
  | restyle a changes => sheet.applyStyle a changes

/-- Whether all attributes that are changed have a name. -/
def IsKnown : CellEdit → Prop
  | type _ _ => True
  | restyle _ changes => ∀ change ∈ changes, (Attribute.ofName? change.1).isSome = true

instance : (edit : CellEdit) → Decidable edit.IsKnown
  | type _ _ => .isTrue trivial
  | restyle _ changes =>
    inferInstanceAs (Decidable (∀ change ∈ changes, (Attribute.ofName? change.1).isSome = true))

/-- The cell after the edit, given the one before. -/
def cell (c : Option Cell) : CellEdit → Cell
  | type _ text => .ofText text (c.bind Cell.style)
  | restyle _ changes => .restyled changes c

/-- The cells after the edit, where the position has the name `id`. -/
def onCells (edit : CellEdit) (id : String) (cells : Cells) : Cells :=
  cells.put id (edit.cell (cells.get? id))

/-- An edit that types no formula, or a regular one. -/
def IsRegular : CellEdit → Prop
  | type _ text => Formula.IsRegularText text
  | restyle _ _ => True

variable {edit : CellEdit} {sheet sheet' : Sheet} {id : String}

/-- An edit succeeds exactly if the position has a name and all attributes that are
    changed have one. It replaces the cell and finds all values anew. -/
theorem apply_eq_ok_iff :
    edit.apply sheet = .ok sheet' ↔ edit.IsKnown ∧ ∃ id, edit.address.toId = .ok id ∧
      sheet' = { sheet with cells := edit.onCells id sheet.cells }.recompute .builtins := by
  cases edit with
  | type a text =>
      rw [apply, Sheet.commitEdit_eq_ok_iff]
      exact (and_iff_right trivial).symm
  | restyle a changes =>
      rw [apply, Sheet.applyStyle_eq_ok_iff]
      rfl

/-- An edit computes nothing: its cell has the computed value from before, or none. -/
theorem computed_cell (edit : CellEdit) (c : Option Cell) :
    (edit.cell c).computed = none ∨ (edit.cell c).computed = c.bind Cell.computed := by
  cases edit with
  | type a text =>
      refine Or.inl ?_
      rw [cell, Cell.ofText]
      split <;> rfl
  | restyle a changes =>
      refine Or.inr ?_
      cases c <;> rfl

/-- The formula after an edit was typed, or was there before. -/
theorem formula?_cell {edit : CellEdit} {c : Option Cell} {formula : String}
    (h : (edit.cell c).formula? = some formula) :
    (∃ a, edit = type a formula ∧ formula.toList.head? = some '=') ∨
      c.bind Cell.formula? = some formula := by
  cases edit with
  | type a text =>
      rcases Cell.formula?_ofText h with ⟨hhead, rfl⟩
      exact Or.inl ⟨a, rfl, hhead⟩
  | restyle a changes =>
      refine Or.inr ?_
      cases c with
      | none => cases h
      | some c => exact h

/-- The other cells stay as they are. -/
theorem get?_onCells_of_ne (edit : CellEdit) {cells : Cells} {id' : String} (h : id' ≠ id) :
    (edit.onCells id cells).get? id' = cells.get? id' :=
  Cells.get?_put_of_ne cells _ h

/-- Regular edits keep the formulas covered. -/
theorem covered_onCells {cells : Cells} (h : cells.Covered) (hregular : edit.IsRegular)
    (id : String) : (edit.onCells id cells).Covered := by
  intro id' c formula hget hformula
  by_cases hid : id' = id
  · rw [hid, onCells, Cells.get?_put_self] at hget
    rcases Option.ite_none_left_eq_some.mp hget with ⟨_, hcell⟩
    rw [← Option.some.inj hcell] at hformula
    rcases formula?_cell hformula with ⟨a, rfl, hhead⟩ | hbefore
    · exact Formula.isCovered_of_isRegular (hregular hhead)
    · rcases Option.bind_eq_some_iff.mp hbefore with ⟨c', hget', hformula'⟩
      exact h id c' formula hget' hformula'
  · rw [get?_onCells_of_ne edit hid] at hget
    exact h id' c formula hget hformula

end CellEdit

end Spreadsheet
