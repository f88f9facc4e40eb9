import Spreadsheet.Proofs.Engine.Names

/-!
# The Index of an Engine

The two ways of going through a block, in every state of an engine.

An engine that takes in a sheet makes a list of the names that formulas reach, with their
addresses, and keeps it until it takes in the next one. The cells go on changing all the
while, also in the middle of a calculation, when the next range may be asked for. That
the list still fits them is because a calculation changes the values of cells and never
which cells there are (`Engine.Indexed.reachable_eq`).

Whether the names of a block are looked up among the cells or the list is searched for
the addresses in the block depends on the sizes of both, so a cell far away can turn the
one into the other. It makes no difference: both give the values of the same cells in
the same order. Names that are not canonical are found in neither way. The block has
only canonical ones, and the others are not in the list.

## Main definitions

* `Cells.valuesByIndex`: The values in a block, by a list of addresses.
* `Cells.presentIn`: The cells present in a block, row by row.
* `Engine.Indexed`: An engine with the list that it has made.
* `Engine.cellsAfter`: The cells in the middle of a calculation.

## Theorems

* `Cells.mem_presentIn`, `Cells.pairwise_presentIn`: Which cells these are, and in which
  order.
* `Cells.valuesByName_eq_map`: The values in a block, by name.
* `Engine.Indexed.reachable_eq`: The list always fits the cells.
* `Engine.Indexed.values_eq`: Both ways give one list in every state.
-/

namespace Spreadsheet

namespace Cells

variable {a b : Cells} {block : Block}

/-- The values present in a block, found by going through a list of names with their
    addresses. -/
def valuesByIndex (cells : Cells) (index : List (String × Address)) (block : Block) :
    List Value :=
  let inside := index.filter fun (_, a) => a ∈ block
  (inside.mergeSort fun p q => rowMajor p.2 q.2).map fun (id, _) => cells.valueAt id

/-- Cells with the same names are reached under the same names. -/
theorem reachable_congr (h : a.keys = b.keys) : a.reachable = b.reachable := by
  unfold reachable located
  rw [h]

/-- The names of the cells present in a block, with their addresses, row by row. -/
def presentIn (cells : Cells) (block : Block) : List (String × Address) :=
  block.named.filter fun p => cells.contains p.1

/-- What is present in a block are the cells with a canonical name of an address in it. -/
theorem mem_presentIn (cells : Cells) (hgrid : block.OnGrid) {id : String} {address : Address} :
    (id, address) ∈ cells.presentIn block ↔
      Address.IsCanonical id ∧ Address.ofId? id = some address ∧ address ∈ block ∧
        ∃ c, cells.get? id = some c := by
  rw [presentIn, List.mem_filter, Block.mem_named hgrid, OrderedMap.contains,
    Option.isSome_iff_exists]
  tauto

/-- The cells present in a block come row by row, and each of them once. -/
theorem pairwise_presentIn (cells : Cells) (block : Block) :
    (cells.presentIn block).Pairwise fun p q =>
      p.2.row < q.2.row ∨ p.2.row = q.2.row ∧ p.2.col < q.2.col :=
  (List.pairwise_map.mpr block.pairwise_addresses).filter _

/-- To look up the names of a block gives the values of the cells present in it. -/
theorem valuesByName_eq_map (cells : Cells) (hgrid : block.OnGrid) :
    (cells.valuesByName block).map some
      = (cells.presentIn block).map fun p => (cells.get? p.1).map Cell.currentValue := by
  rw [← valuesByCell_eq cells hgrid, valuesByCell, mergeSort_reachable cells hgrid, List.map_map]
  refine List.map_congr_left fun p hp => ?_
  rcases (cells.mem_presentIn hgrid).mp (show (p.1, p.2) ∈ _ from hp) with ⟨_, _, _, c, hc⟩
  show some (cells.valueAt p.1) = _
  rw [valueAt, hc]
  rfl

end Cells

namespace Engine

/-- The engines with the list of names and addresses that they made when they took in
    their sheet, after any sequence of tasks. -/
inductive Indexed : Engine → List (String × Address) → Prop where
  /-- An engine that has no sheet has an empty list. -/
  | new (functions : Registry) : Indexed ⟨functions, none⟩ []
  /-- A sheet is loaded, and a list is made of its cells. -/
  | load {engine : Engine} {index : List (String × Address)} (h : Indexed engine index)
    (sheet : Sheet) : Indexed (engine.load sheet) sheet.cells.reachable
  | calculate {engine after : Engine} {index : List (String × Address)}
    (h : Indexed engine index) (hafter : engine.calculate = .ok after) : Indexed after index
  /-- Texts are typed into cells, and a list is made of all cells then. -/
  | edit {engine : Engine} {index : List (String × Address)} (h : Indexed engine index)
    {book : Workbook} (hbook : engine.book = some book) {edits : OrderedMap String String}
    (hids : ∀ id ∈ edits.keys, (Address.ofId? id).isSome = true) (tolerance : Number) :
    Indexed (engine.recalculate edits tolerance).2
      (book.sheet.cells.typed edits.entries).reachable
  /-- Edits are refused, because there is no sheet or one is of what is no cell. -/
  | refuse {engine : Engine} {index : List (String × Address)} (h : Indexed engine index)
    {edits : OrderedMap String String}
    (hrefused : engine.book = none ∨ ∃ id ∈ edits.keys, Address.ofId? id = none)
    (tolerance : Number) : Indexed (engine.recalculate edits tolerance).2 index

/-- The cells of an engine after some formulas were evaluated on top of what was known,
    as in the middle of a calculation. -/
def cellsAfter (engine : Engine) (done : List String) : Cells :=
  match engine.book with
  | none => ∅
  | some book =>
    done.foldl (Cells.evaluateAt engine.functions book.graph) book.sheet.cells

variable {engine : Engine} {index : List (String × Address)}

/-- Evaluating formulas neither adds nor removes a cell. -/
theorem keys_cellsAfter (engine : Engine) (done : List String) :
    (engine.cellsAfter done).keys = (engine.cellsAfter []).keys := by
  unfold cellsAfter
  cases engine.book with
  | none => rfl
  | some book =>
      exact (Cells.sameEntries_foldl
        (Cells.sameEntries_evaluateAt engine.functions book.graph) done book.sheet.cells).keys

theorem cellsAfter_nil {book : Workbook} (hbook : engine.book = some book) :
    engine.cellsAfter [] = book.sheet.cells := by
  unfold cellsAfter
  rw [hbook]
  rfl

/-- Refused edits leave an engine as it is. -/
theorem recalculate_of_refused {edits : OrderedMap String String}
    (hrefused : engine.book = none ∨ ∃ id ∈ edits.keys, Address.ofId? id = none)
    (tolerance : Number) : (engine.recalculate edits tolerance).2 = engine := by
  cases hbook : engine.book with
  | none =>
      unfold recalculate loaded
      rw [hbook]
  | some book =>
      rcases hrefused with hnone | ⟨id, hid, hcell⟩
      · rw [hbook] at hnone
        cases hnone
      · cases hfind : edits.keys.find? (fun id => (Address.ofId? id).isNone) with
        | none =>
            have hsome := find?_eq_none_iff_isSome.mp hfind id hid
            rw [hcell] at hsome
            cases hsome
        | some id' => rw [recalculate_of_not_cell hbook hfind]

/-- The list of an engine always fits its cells. -/
theorem Indexed.reachable_eq (h : Indexed engine index) (done : List String) :
    index = (engine.cellsAfter done).reachable := by
  rw [Cells.reachable_congr (keys_cellsAfter engine done)]
  clear done
  -- New names come from sheets and edits alone, and with these a new list is made.
  induction h with
  | new functions => rfl
  | load _ sheet =>
      exact Cells.reachable_congr (Cells.sameEntries_resolveLiterals sheet.cells).keys.symm
  | @calculate engine after _ _ hafter ih =>
      cases hbook : engine.book with
      | none =>
          rw [Engine.calculate, loaded, hbook] at hafter
          cases hafter
      | some book =>
          rw [Engine.calculate, loaded, hbook] at hafter
          rw [ih, cellsAfter_nil hbook, ← Except.ok.inj hafter]
          exact Cells.reachable_congr (keys_calculate engine.functions book).symm
  | @edit engine _ _ book hbook edits hids tolerance _ =>
      rw [recalculate_of_cells hbook (find?_eq_none_iff_isSome.mpr hids)]
      exact Cells.reachable_congr (keys_edited engine.functions book edits).symm
  | refuse _ hrefused tolerance ih => rw [recalculate_of_refused hrefused, ih]

/-- In every state of an engine and at every point of a calculation, to look up the names
    of a block and to go through the list of the engine gives one list, so that it does
    not matter which way is taken. It has the current values of the cells with canonical
    names in the block, each once and row by row. -/
theorem Indexed.values_eq (h : Indexed engine index) {text : String} {block : Block}
    (hblock : Block.ofText text = .ok block) (done : List String) :
    let cells := engine.cellsAfter done
    cells.valuesByIndex index block = cells.valuesByName block ∧
      cells.valuesIn block = (if block.rows * block.cols ≤ index.length
        then cells.valuesByName block else cells.valuesByIndex index block) ∧
      ∃ present : List (String × Address),
        (∀ id address, (id, address) ∈ present ↔
          Address.IsCanonical id ∧ Address.ofId? id = some address ∧ address ∈ block ∧
            ∃ c, cells.get? id = some c) ∧
        (present.Pairwise fun p q => p.2.row < q.2.row ∨ p.2.row = q.2.row ∧ p.2.col < q.2.col) ∧
        (cells.valuesByName block).map some
          = present.map fun p => (cells.get? p.1).map Cell.currentValue := by
  intro cells
  have hgrid : block.OnGrid := Block.onGrid_of_ofChars hblock
  have hindex : index = cells.reachable := h.reachable_eq done
  refine ⟨?_, ?_, cells.presentIn block, fun id address => cells.mem_presentIn hgrid,
    cells.pairwise_presentIn block, cells.valuesByName_eq_map hgrid⟩
  · rw [hindex]
    exact cells.valuesByCell_eq hgrid
  · rw [hindex]
    rfl

/-- A formula typed into a cell of a sheet that has another one under a name that is not
    canonical, and a range over both. -/
theorem Indexed.values_eq_typed :
    let sheet : Sheet := { cells := .ofList [("B2", { value := "2" }), ("A01", { value := "1" })] }
    let engine := Engine.load ⟨.builtins, none⟩ sheet
    let edits : OrderedMap String String := .ofList [("A1", "=B2*3")]
    let after := (engine.recalculate edits defaultTolerance).2
    (∀ id ∈ edits.keys, (Address.ofId? id).isSome = true) ∧ ∃ index block,
      Indexed after index ∧ Block.ofText "B2:A1" = .ok block ∧
        (after.cellsAfter []).valuesByIndex index block
          = (after.cellsAfter []).valuesByName block := by
  intro sheet engine edits after
  have hids : ∀ id ∈ edits.keys, (Address.ofId? id).isSome = true := by decide +kernel
  have hload : Indexed engine sheet.cells.reachable := .load (.new .builtins) sheet
  have hafter := hload.edit rfl hids defaultTolerance
  obtain ⟨block, hblock⟩ : ∃ block, Block.ofText "B2:A1" = .ok block := ⟨_, rfl⟩
  exact ⟨hids, _, block, hafter, hblock, (hafter.values_eq hblock []).1⟩

end Engine

end Spreadsheet
