import Spreadsheet.Proofs.Recompute.Entries

/-!
# Stale Values

The values that a sheet comes with do not matter for the values that are found.

A sheet keeps its computed values in its cells, and evaluation looks at them. A
document, a caller or an edit may have left any values there, right ones, old ones
or none at all. For regular formulas recomputation makes up for it: whatever the
computed values are (`Sheet.withComputed`), the result is one and the same sheet,
which differs from the given one in computed values only. This includes the cells
on cycles and behind them, and so recomputing a second time changes nothing.

## Main definitions

* `Cells.withComputed`, `Sheet.withComputed`: The same cells with other computed
  values.

## Theorems

* `Cells.SameEntries.eq_withComputed`: Cells with the same entries differ in
  computed values only.
* `Sheet.recompute_withComputed`: Recomputation does not depend on the computed
  values, changes nothing else, and does nothing the second time.
-/

namespace Spreadsheet

namespace Cells

/-- The same cells, each with the computed value given for its name. -/
def withComputed (values : String → Option Value) (cells : Cells) : Cells :=
  cells.mapValues fun id c => { c with computed := values id }

theorem get?_withComputed (values : String → Option Value) (cells : Cells) (id : String) :
    (cells.withComputed values).get? id
      = (cells.get? id).map fun c => { c with computed := values id } :=
  OrderedMap.get?_mapValues _ _ _

theorem sameEntries_withComputed (values : String → Option Value) (cells : Cells) :
    SameEntries (cells.withComputed values) cells where
  keys := OrderedMap.keys_mapValues _ _
  entry := fun id => by
    rw [get?_withComputed, Option.map_map]
    rfl

/-- Cells with the same entries differ in computed values only. -/
theorem SameEntries.eq_withComputed {a b : Cells} (h : SameEntries a b) :
    a = b.withComputed a.computedAt := by
  refine (h.trans (sameEntries_withComputed _ b).symm).eq_of_computedAt fun id => ?_
  -- Where there is no cell, nothing is computed on either side.
  rw [computedAt, computedAt, get?_withComputed]
  cases hget : b.get? id with
  | none =>
      have hentry := h.entry id
      rw [hget, Option.map_none, Option.map_eq_none_iff] at hentry
      rw [hentry]
      rfl
  | some c => rfl

end Cells

namespace Sheet

/-- The same sheet, each cell with the computed value given for its name. -/
def withComputed (values : String → Option Value) (sheet : Sheet) : Sheet :=
  { sheet with cells := sheet.cells.withComputed values }

/-- Recomputation does not depend on the computed values that are there before. It
    changes nothing but these, and does nothing the second time. -/
theorem recompute_withComputed {sheet : Sheet} (hregular : sheet.IsRegular)
    (functions : Registry) (values values' : String → Option Value) :
    (sheet.withComputed values).recompute functions
        = (sheet.withComputed values').recompute functions ∧
      (∃ found, (sheet.withComputed values).recompute functions = sheet.withComputed found) ∧
      (sheet.recompute functions).recompute functions = sheet.recompute functions := by
  -- Whatever the values are, the pass comes to the same as without them.
  have hforget : ∀ values, (sheet.cells.withComputed values).recompute functions
      = sheet.cells.recompute functions := fun values =>
    ((Cells.sameEntries_withComputed values sheet.cells).symm.recompute_eq functions
      hregular.covered).symm
  have hrecompute : ∀ cells : Cells, Sheet.recompute functions { sheet with cells }
      = { sheet with cells := cells.recompute functions } := fun _ => rfl
  refine ⟨?_, ⟨(sheet.cells.recompute functions).computedAt, ?_⟩, ?_⟩
  · rw [withComputed, withComputed, hrecompute, hrecompute, hforget, hforget]
  · rw [withComputed, hrecompute, hforget, withComputed,
      ← (Cells.sameEntries_recompute functions sheet.cells).eq_withComputed]
  · show Sheet.recompute functions { sheet with cells := sheet.cells.recompute functions } = _
    rw [hrecompute, Cells.recompute_recompute functions hregular.covered]
    rfl

/-- A formula that reads itself, and one that reads it, with an old value in one of
    them. -/
theorem recompute_withComputed_cycle :
    let sheet : Sheet := { cells := .ofList [("A1", { formula := some "=B1" }),
      ("B1", { formula := some "=B1+1" }), ("C1", { value := "2" })] }
    let stale : String → Option Value := fun id =>
      if id = "B1" then some (.number (.whole 7)) else none
    sheet.IsRegular ∧
      (sheet.withComputed stale).recompute .builtins
          = (sheet.withComputed fun _ => none).recompute .builtins ∧
        (∃ found, (sheet.withComputed stale).recompute .builtins = sheet.withComputed found) ∧
        (sheet.recompute .builtins).recompute .builtins = sheet.recompute .builtins := by
  intro sheet stale
  have hregular : sheet.IsRegular := by decide +kernel
  exact ⟨hregular, recompute_withComputed hregular .builtins stale fun _ => none⟩

end Sheet

end Spreadsheet
