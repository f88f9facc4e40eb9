import Spreadsheet.Proofs.Block.Listing
import Spreadsheet.Proofs.Dependency.Edges
import Spreadsheet.Dependency.Order

/-!
# Blocks Kept and Blocks Written Out

A graph that keeps blocks as they are says the same as one that lists their cells.

The simplest graph has one kind of entry: a formula that names a block mentions
every cell of it. It is what the graph with blocks has to agree with, although the
one finds a reader in a list by the name of the cell, and the other by its address.
The two are built in step, one formula after the other, and after each formula the
readers that are listed in the one are those that are listed in the other or that
have a block with the cell among its names (`Expands`).

A name of a block is canonical, so the two differ at names that are not: such a name
has an address, and this may lie in a block that does not list the name. On canonical
names they agree, and the walk asks for nothing but which formula cell reads which.

## Main definitions

* `Formula.cellwise`: The cells that a formula reads, blocks written out.
* `DependencyGraph.addCellwise`: The graph with one more formula, without blocks.
* `DependencyGraph.ofCellsCellwise`: The graph of the formulas among some cells.
* `DependencyGraph.Expands`: A graph lists what another one keeps in blocks.

## Theorems

* `Expands.step`: A formula for a new cell is added to both graphs.
* `Expands.isReader_eq`: The graphs agree on who reads a canonical name.
* `order_congr`: The order depends on who reads which formula cell only.
* `ofCellsCellwise_eq`: The readers, the order and what is blocked are the same.
-/

namespace Spreadsheet

/-- The cells that a formula reads: those that it mentions, and those of the blocks
    that it names. -/
def Formula.cellwise (formula : String) : List String :=
  (references formula ++ (ranges formula).flatMap Block.ids).eraseDups

/-- A text names only blocks on the grid. -/
theorem Formula.onGrid_of_mem_ranges {formula : String} {block : Block}
    (h : block ∈ ranges formula) : block.OnGrid := by
  rcases List.mem_filterMap.mp h with ⟨text, _, htext⟩
  cases hblock : Block.ofText text with
  | error e =>
      rw [hblock] at htext
      cases htext
  | ok block' =>
      rw [hblock] at htext
      rw [← Option.some.inj htext]
      exact Block.onGrid_of_ofChars hblock

namespace DependencyGraph

/-- The graph with one more formula, where a block stands for its cells. -/
def addCellwise (graph : DependencyGraph) (id formula : String) : DependencyGraph :=
  { graph with
    formulas := graph.formulas.insert id formula
    dependencies := graph.dependencies.insert id (Formula.cellwise formula)
    dependents := (Formula.cellwise formula).foldl (addReader id) graph.dependents }

/-- The graph of the formulas among some cells, where blocks stand for their cells. -/
def ofCellsCellwise (cells : Cells) : DependencyGraph :=
  (formulasOf cells).foldl (fun graph (id, formula) => graph.addCellwise id formula) {}

/-- A graph without blocks lists the readers that another graph lists, and those that
    have the cell in a block. -/
structure Expands (listed graph : DependencyGraph) : Prop where
  /-- Both have the same formulas. -/
  formulas : listed.formulas = graph.formulas
  /-- The one graph has no blocks. -/
  blocks : listed.blocks = ∅
  /-- A reader is listed there if it is listed here or has the cell in a block. -/
  dependents : ∀ id reader, reader ∈ (listed.dependents.get? id).getD [] ↔
    reader ∈ (graph.dependents.get? id).getD [] ∨
      ∃ block ∈ (graph.blocks.get? reader).getD [], id ∈ block.ids

variable {graph listed : DependencyGraph}

namespace Expands

/-- Two graphs without formulas. -/
theorem start : Expands {} {} where
  formulas := rfl
  blocks := rfl
  dependents := fun id reader => by
    constructor
    · exact Or.inl
    · rintro (h | ⟨block, h, _⟩)
      · exact h
      · cases h

/-- A formula for a cell that has none yet is added to both graphs. -/
theorem step (h : listed.Expands graph) (hexact : graph.IsExact) {id : String} (formula : String)
    (hid : id ∉ graph.formulas.keys) :
    (listed.addCellwise id formula).Expands (graph.addFormula id formula) where
  formulas := congrArg (OrderedMap.insert · id formula) h.formulas
  blocks := h.blocks
  dependents := fun id' reader => by
    show reader ∈ (((Formula.cellwise formula).foldl (addReader id) listed.dependents).get?
      id').getD [] ↔ reader ∈ (((Formula.references formula).foldl (addReader id)
        graph.dependents).get? id').getD [] ∨ _
    rw [mem_addReaders, mem_addReaders, h.dependents, hexact.blocks_addFormula formula hid,
      Formula.cellwise, List.mem_eraseDups, List.mem_append, List.mem_flatMap]
    by_cases hreader : reader = id
    · -- The cell had no blocks, so those of the new formula are all it has.
      have hnone : ∀ block, block ∉ (graph.blocks.get? id).getD [] := fun block hblock => by
        rcases (hexact.blocks _ _).mp hblock with ⟨formula', hformula, _⟩
        rw [(OrderedMap.get?_eq_none_iff _ _).mpr hid] at hformula
        cases hformula
      subst hreader
      simp only [hnone, if_true, false_and, exists_false, or_false, true_and, or_assoc]
    · simp only [hreader, if_false, false_and, or_false]

/-- The formulas of different cells that have none yet are added to both graphs. -/
theorem run (h : listed.Expands graph) (hexact : graph.IsExact) {formulas : List (String × String)}
    (hnodup : (graph.formulas.keys ++ formulas.map Prod.fst).Nodup) :
    (formulas.foldl (fun graph (id, formula) => graph.addCellwise id formula) listed).Expands
      (ofFormulas formulas graph) := by
  induction formulas generalizing graph listed with
  | nil => exact h
  | cons e formulas ih =>
      rcases e with ⟨id, formula⟩
      rcases not_mem_keys_of_nodup hnodup with ⟨hid, hnodup'⟩
      exact ih (h.step hexact formula hid) (hexact.addFormula formula hid) hnodup'

/-- A canonical name is in a block if it is one of the names of the block, so the
    graphs agree on who reads it. -/
theorem isReader_eq (h : listed.Expands graph) (hexact : graph.IsExact) (reader : String)
    {id : String} (hcanonical : Address.IsCanonical id) :
    listed.isReader reader id = graph.isReader reader id := by
  have hblocks : ∀ block ∈ (graph.blocks.get? reader).getD [],
      (id ∈ block.ids ↔ ∃ a, Address.ofId? id = some a ∧ a ∈ block) := by
    intro block hblock
    rcases (hexact.blocks _ _).mp hblock with ⟨formula, _, hrange⟩
    rw [Block.mem_ids (Formula.onGrid_of_mem_ranges hrange)]
    exact and_iff_right hcanonical
  -- The expanded graph has no blocks left, so all its readers are in the lists.
  have hlisted : listed.readsInBlock reader id = false := by
    rw [readsInBlock, h.blocks]
    cases Address.ofId? id with
    | none => rfl
    | some a => rfl
  rw [Bool.eq_iff_iff, isReader, isReader, hlisted, Bool.or_false, Bool.or_eq_true,
    List.contains_iff_mem, List.contains_iff_mem, h.dependents]
  refine or_congr_right ?_
  rw [readsInBlock]
  cases ha : Address.ofId? id with
  | none =>
      simp only [Bool.false_eq_true, iff_false]
      rintro ⟨block, hblock, hid⟩
      rcases (hblocks block hblock).mp hid with ⟨a, ha', _⟩
      rw [ha] at ha'
      cases ha'
  | some a =>
      rw [List.any_eq_true]
      refine exists_congr fun block => and_congr_right fun hblock => ?_
      rw [hblocks block hblock, ha, decide_eq_true_eq]
      simp only [Option.some.injEq, exists_eq_left']

end Expands

/-- Two walks with the same counts and the same queue go the same way, if their graphs
    agree on who reads a formula cell. -/
theorem settle_congr {graph' : DependencyGraph}
    (hreads : ∀ id ∈ graph.formulas.keys, ∀ reader,
      graph'.isReader reader id = graph.isReader reader id)
    {steps : Nat} {waiting : List (String × Nat)} {queue : List String}
    (hwaiting : ∀ p ∈ waiting, p.1 ∈ graph.formulas.keys)
    (hqueue : ∀ id ∈ queue, id ∈ graph.formulas.keys) :
    graph'.settle steps waiting queue = graph.settle steps waiting queue := by
  induction steps generalizing waiting queue with
  | zero => rfl
  | succ steps ih =>
      cases queue with
      | nil => rfl
      | cons id queue =>
          have hid := hqueue id List.mem_cons_self
          have hrelease : graph'.release id waiting = graph.release id waiting := by
            rw [release, release]
            simp only [hreads id hid]
          have hfreed : graph'.freed id waiting = graph.freed id waiting := by
            rw [freed, freed]
            simp only [hreads id hid]
          rw [settle, settle, hrelease, hfreed]
          refine congrArg (id :: ·) (ih ?_ ?_)
          -- What is released or freed was waiting before.
          · intro p hp
            rcases List.mem_map.mp hp with ⟨q, hq, rfl⟩
            exact hwaiting q hq
          · intro id' hid'
            rcases List.mem_append.mp hid' with hid' | hid'
            · exact hqueue id' (List.mem_cons_of_mem _ hid')
            · rcases List.mem_map.mp hid' with ⟨p, hp, rfl⟩
              exact hwaiting p (List.mem_filter.mp hp).1

/-- The order depends on the formula cells and on who reads which of them only. -/
theorem order_congr {graph' : DependencyGraph} (hformulas : graph'.formulas = graph.formulas)
    (hreads : ∀ id ∈ graph.formulas.keys, ∀ reader,
      graph'.isReader reader id = graph.isReader reader id) :
    graph'.order = graph.order := by
  have hcount : ∀ reader, graph'.waitingFor reader = graph.waitingFor reader := by
    intro reader
    rw [waitingFor, waitingFor, hformulas]
    exact congrArg List.length (List.filter_congr fun id hid => hreads id hid reader)
  rw [order, order, hformulas]
  simp only [hcount]
  refine settle_congr hreads (fun p hp => ?_) (fun id hid => ?_)
  · rcases List.mem_map.mp hp with ⟨id, hid, rfl⟩
    exact hid
  · rcases List.mem_map.mp hid with ⟨p, hp, rfl⟩
    rcases List.mem_map.mp (List.mem_filter.mp hp).1 with ⟨reader, hreader, rfl⟩
    exact hreader

theorem expands_ofCellsCellwise (cells : Cells) :
    (ofCellsCellwise cells).Expands (ofCells cells) :=
  Expands.start.run isExact_empty (nodup_formulasOf cells)

/-- A graph that keeps blocks as they are and one that lists the cells of each block
    agree on the readers of every canonical name, whatever the cells are called. If these
    have canonical names, the order and what is blocked are the same too. -/
theorem ofCellsCellwise_eq (cells : Cells)
    (hcanonical : ∀ id ∈ cells.keys, Address.IsCanonical id) :
    (∀ id, Address.IsCanonical id →
      (ofCellsCellwise cells).readersOf id = (ofCells cells).readersOf id) ∧
    (ofCellsCellwise cells).order = (ofCells cells).order ∧
    (ofCellsCellwise cells).blocked = (ofCells cells).blocked := by
  have hexpands := expands_ofCellsCellwise cells
  have hreads : ∀ id, Address.IsCanonical id → ∀ reader,
      (ofCellsCellwise cells).isReader reader id = (ofCells cells).isReader reader id :=
    fun id hid reader => hexpands.isReader_eq (isExact_ofCells cells) reader hid
  -- The formula cells are among the cells, so their names are canonical.
  have hkeys : ∀ id ∈ (ofCells cells).formulas.keys, Address.IsCanonical id := by
    intro id hid
    rcases (OrderedMap.mem_keys_iff _).mp hid with ⟨formula, hformula⟩
    rw [formulas_ofCells, Option.bind_eq_some_iff] at hformula
    rcases hformula with ⟨cell, hcell, _⟩
    exact hcanonical id ((OrderedMap.mem_keys_iff _).mpr ⟨cell, hcell⟩)
  have horder : (ofCellsCellwise cells).order = (ofCells cells).order :=
    order_congr hexpands.formulas fun id hid => hreads id (hkeys id hid)
  refine ⟨fun id hid => ?_, horder, ?_⟩
  · rw [readersOf, readersOf, hexpands.formulas]
    exact List.filter_congr fun reader _ => hreads id hid reader
  · rw [blocked, blocked, horder, hexpands.formulas]

/-- A block with its corners reversed beside a cell of it, a block with columns of two
    letters, and a range that is none. -/
theorem ofCellsCellwise_eq_overlapping :
    let cells : Cells := .ofList [("A1", { formula := some "=B2+SUM(B2:A2)" }),
      ("B2", { formula := some "=SUM(AB3:Z3)" }), ("AA3", { formula := some "=SUM(A0:A3)" }),
      ("D1", { formula := some "=SUM(C1:E2)" })]
    (∀ id ∈ cells.keys, Address.IsCanonical id) ∧
      (ofCellsCellwise cells).readersOf "B2" = ["A1"] ∧
      (ofCellsCellwise cells).order = ["AA3", "B2", "A1"] ∧
      (ofCellsCellwise cells).blocked = ["D1"] := by
  intro cells
  have hcanonical : ∀ id ∈ cells.keys, Address.IsCanonical id := by decide +kernel
  rcases ofCellsCellwise_eq cells hcanonical with ⟨hreaders, horder, hblocked⟩
  rw [hreaders "B2" (by decide +kernel), horder, hblocked]
  exact ⟨hcanonical, by decide +kernel⟩

-- A name that is not canonical lies in a block that does not list it.
example :
    let cells : Cells := .ofList [("B1", { formula := some "=SUM(A1:A2)" }),
      ("A01", { formula := some "=2" })]
    (ofCellsCellwise cells).readersOf "A01" = [] ∧ (ofCells cells).readersOf "A01" = ["B1"] := by
  decide +kernel

end DependencyGraph

end Spreadsheet
