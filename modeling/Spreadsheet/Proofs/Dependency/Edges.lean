import Spreadsheet.Dependency.Graph
import Spreadsheet.Proofs.Evaluate.Coverage
import Spreadsheet.Proofs.OrderedMap

/-!
# The Edges of a Dependency Graph

A graph that is built from cells knows exactly what their formulas read.

The entries of a graph are written once, when a formula is added: its name goes
into the list of readers of every cell that it mentions, and its blocks are kept
beside it. `IsExact` says that both kinds of entries are those of the formulas
that the graph has. Adding a formula keeps it, as long as the cell has none yet;
the cells of a sheet have different names, so this is the only case that occurs
when a graph is built from them.

## Main definitions

* `DependencyGraph.IsExact`: The entries are those of the formulas.

## Theorems

* `IsExact.addFormula`: A formula for a new cell keeps the entries exact.
* `formulas_ofCells`: The formulas of a graph are those of the cells.
* `isExact_ofCells`: A graph that is built from cells is exact.
* `IsExact.isReader_iff`: In an exact graph, readers are the formulas that read.
-/

namespace Spreadsheet

namespace DependencyGraph

/-- The entries of a graph are those of its formulas. -/
structure IsExact (graph : DependencyGraph) : Prop where
  /-- The readers of a cell are the formulas that mention it. -/
  dependents : ∀ id reader, reader ∈ (graph.dependents.get? id).getD [] ↔
    ∃ formula, graph.formulas.get? reader = some formula ∧ id ∈ Formula.references formula
  /-- The blocks of a cell are those that its formula names. -/
  blocks : ∀ reader block, block ∈ (graph.blocks.get? reader).getD [] ↔
    ∃ formula, graph.formulas.get? reader = some formula ∧ block ∈ Formula.ranges formula

theorem isExact_empty : IsExact {} where
  dependents := fun id reader => by
    constructor
    · intro h
      cases h
    · rintro ⟨formula, h, _⟩
      cases h
  blocks := fun reader block => by
    constructor
    · intro h
      cases h
    · rintro ⟨formula, h, _⟩
      cases h

/-- One more reader of a cell is a reader of that cell only. -/
theorem mem_addReader {reader reader' id id' : String}
    {dependents : OrderedMap String (List String)} :
    reader' ∈ ((addReader reader dependents id).get? id').getD [] ↔
      reader' ∈ (dependents.get? id').getD [] ∨ reader' = reader ∧ id' = id := by
  unfold addReader
  by_cases hid : id' = id
  · subst hid
    simp only [OrderedMap.get?_insert_self, Option.getD_some]
    -- A reader that is listed already is not listed again.
    by_cases hknown : reader ∈ (dependents.get? id').getD []
    · rw [if_pos (List.contains_iff_mem.mpr hknown)]
      constructor
      · exact Or.inl
      · rintro (h | ⟨rfl, _⟩)
        · exact h
        · exact hknown
    · rw [if_neg (fun h => hknown (List.contains_iff_mem.mp h)), List.mem_append,
        List.mem_singleton]
      simp only [and_true]
  · simp only [OrderedMap.get?_insert_of_ne _ _ hid, hid, and_false, or_false]

theorem mem_addReaders {reader reader' id : String} {references : List String}
    {dependents : OrderedMap String (List String)} :
    reader' ∈ ((references.foldl (addReader reader) dependents).get? id).getD [] ↔
      reader' ∈ (dependents.get? id).getD [] ∨ reader' = reader ∧ id ∈ references := by
  induction references generalizing dependents with
  | nil => simp only [List.foldl_nil, List.not_mem_nil, and_false, or_false]
  | cons reference references ih =>
      rw [List.foldl_cons, ih, mem_addReader, List.mem_cons, or_assoc, ← and_or_left]

/-- A formula for a cell that has none brings the blocks of that cell with it. -/
theorem IsExact.blocks_addFormula {graph : DependencyGraph} (h : graph.IsExact) {id : String}
    (formula : String) (hid : id ∉ graph.formulas.keys) (reader : String) :
    ((graph.addFormula id formula).blocks.get? reader).getD []
      = if reader = id then Formula.ranges formula else (graph.blocks.get? reader).getD [] := by
  show ((if (Formula.ranges formula).isEmpty then graph.blocks
    else graph.blocks.insert id (Formula.ranges formula)).get? reader).getD [] = _
  by_cases hreader : reader = id
  · subst hreader
    rw [if_pos rfl]
    by_cases hempty : (Formula.ranges formula).isEmpty = true
    · rw [if_pos hempty, List.isEmpty_iff.mp hempty]
      -- The graph has no formula for the cell, so it has no blocks for it either.
      refine List.eq_nil_iff_forall_not_mem.mpr fun block hblock => ?_
      rcases (h.blocks _ _).mp hblock with ⟨formula', hformula, _⟩
      rw [(OrderedMap.get?_eq_none_iff _ _).mpr hid] at hformula
      cases hformula
    · rw [if_neg hempty, OrderedMap.get?_insert_self, Option.getD_some]
  · rw [if_neg hreader]
    split
    · rfl
    · rw [OrderedMap.get?_insert_of_ne _ _ hreader]

/-- A formula for a cell that has none keeps the entries exact. -/
theorem IsExact.addFormula {graph : DependencyGraph} (h : graph.IsExact) {id : String}
    (formula : String) (hid : id ∉ graph.formulas.keys) :
    (graph.addFormula id formula).IsExact := by
  have hnone : graph.formulas.get? id = none := (OrderedMap.get?_eq_none_iff _ _).mpr hid
  constructor
  · intro id' reader
    show reader ∈ ((List.foldl (addReader id) graph.dependents _).get? id').getD [] ↔
      ∃ formula', (graph.formulas.insert id formula).get? reader = some formula' ∧ _
    rw [mem_addReaders, h.dependents]
    -- The cell had no formula, so it is now a reader of what the new one mentions only.
    by_cases hreader : reader = id
    · subst hreader
      rw [hnone, OrderedMap.get?_insert_self]
      simp only [reduceCtorEq, false_and, exists_false, true_and, false_or, Option.some.injEq,
        exists_eq_left']
    · rw [OrderedMap.get?_insert_of_ne _ _ hreader]
      simp only [hreader, false_and, or_false]
  · intro reader block
    rw [h.blocks_addFormula formula hid]
    show _ ↔ ∃ formula', (graph.formulas.insert id formula).get? reader = some formula' ∧ _
    by_cases hreader : reader = id
    · subst hreader
      rw [if_pos rfl, OrderedMap.get?_insert_self]
      simp only [Option.some.injEq, exists_eq_left']
    · rw [if_neg hreader, OrderedMap.get?_insert_of_ne _ _ hreader, h.blocks]

/-- Of formulas for different cells that have none yet, the first one is for such a cell,
    and leaves such cells to the others. -/
theorem not_mem_keys_of_nodup {graph : DependencyGraph} {id formula : String}
    {formulas : List (String × String)}
    (hnodup : (graph.formulas.keys ++ ((id, formula) :: formulas).map Prod.fst).Nodup) :
    id ∉ graph.formulas.keys ∧
      ((graph.addFormula id formula).formulas.keys ++ formulas.map Prod.fst).Nodup := by
  have hid : id ∉ graph.formulas.keys := fun hm =>
    (List.nodup_append.mp hnodup).2.2 id hm id List.mem_cons_self rfl
  have hkeys : (graph.addFormula id formula).formulas.keys = graph.formulas.keys ++ [id] := by
    show (graph.formulas.insert id formula).keys = _
    rw [OrderedMap.keys_insert, if_neg hid]
  refine ⟨hid, ?_⟩
  rw [hkeys, List.append_assoc]
  exact hnodup

/-- Formulas for different cells that have none yet keep the entries exact, and go
    behind those of the graph. -/
theorem IsExact.ofFormulas {graph : DependencyGraph} (h : graph.IsExact)
    {formulas : List (String × String)}
    (hnodup : (graph.formulas.keys ++ formulas.map Prod.fst).Nodup) :
    (ofFormulas formulas graph).IsExact ∧
      (ofFormulas formulas graph).formulas.entries = graph.formulas.entries ++ formulas := by
  induction formulas generalizing graph with
  | nil => exact ⟨h, (List.append_nil _).symm⟩
  | cons e formulas ih =>
      rcases e with ⟨id, formula⟩
      rcases not_mem_keys_of_nodup hnodup with ⟨hid, hnodup'⟩
      have hrest := ih (h.addFormula formula hid) hnodup'
      refine ⟨hrest.1, ?_⟩
      have hentries : (graph.addFormula id formula).formulas.entries
          = graph.formulas.entries ++ [(id, formula)] :=
        OrderedMap.entries_insert_of_not_mem _ _ hid
      rw [hentries, List.append_assoc] at hrest
      exact hrest.2

theorem nodup_formulasOf (cells : Cells) : ((formulasOf cells).map Prod.fst).Nodup := by
  have hsub : List.Sublist ((formulasOf cells).map Prod.fst) (cells.entries.map Prod.fst) := by
    rw [formulasOf]
    induction cells.entries with
    | nil => exact List.Sublist.refl _
    | cons e entries ih =>
        rcases e with ⟨id, cell⟩
        cases hformula : cell.formula? with
        | none =>
            rw [List.filterMap_cons_none (by simp only [hformula, Option.map_none])]
            exact ih.cons _
        | some formula =>
            rw [List.filterMap_cons_some (b := (id, formula))
              (by simp only [hformula, Option.map_some])]
            exact ih.cons_cons _
  exact cells.nodup_keys.sublist hsub

theorem ofFormulas_formulasOf (cells : Cells) :
    (ofCells cells).IsExact ∧ (ofCells cells).formulas.entries = formulasOf cells :=
  isExact_empty.ofFormulas (nodup_formulasOf cells)

/-- A graph that is built from cells is exact. -/
theorem isExact_ofCells (cells : Cells) : (ofCells cells).IsExact :=
  (ofFormulas_formulasOf cells).1

/-- The formulas of a graph are those of the cells. -/
theorem formulas_ofCells (cells : Cells) (id : String) :
    (ofCells cells).formulas.get? id = (cells.get? id).bind Cell.formula? := by
  ext formula
  rw [OrderedMap.get?_eq_some_iff, (ofFormulas_formulasOf cells).2, Option.bind_eq_some_iff]
  constructor
  · intro h
    rcases List.mem_filterMap.mp h with ⟨⟨id', cell⟩, hmem, hmap⟩
    rcases Option.map_eq_some_iff.mp hmap with ⟨formula', hformula, heq⟩
    rcases Prod.mk.inj heq with ⟨rfl, rfl⟩
    exact ⟨cell, (OrderedMap.get?_eq_some_iff cells).mpr hmem, hformula⟩
  · rintro ⟨cell, hcell, hformula⟩
    refine List.mem_filterMap.mpr ⟨(id, cell), (OrderedMap.get?_eq_some_iff cells).mp hcell, ?_⟩
    simp only [hformula, Option.map_some]

/-- In an exact graph, the readers of a cell are the formulas that read it. -/
theorem IsExact.isReader_iff {graph : DependencyGraph} (h : graph.IsExact) {reader id : String} :
    graph.isReader reader id = true ↔
      ∃ formula, graph.formulas.get? reader = some formula ∧ Formula.Reads formula id := by
  rw [isReader, Bool.or_eq_true, List.contains_iff_mem, h.dependents, readsInBlock]
  -- Singly named cells are those of the lists, and those in ranges are found by address.
  constructor
  · rintro (⟨formula, hformula, hmem⟩ | hblock)
    · exact ⟨formula, hformula, Or.inl hmem⟩
    · split at hblock
      · rename_i a ha
        rcases List.any_eq_true.mp hblock with ⟨block, hmem, hin⟩
        rcases (h.blocks reader block).mp hmem with ⟨formula, hformula, hrange⟩
        exact ⟨formula, hformula, Or.inr ⟨a, ha, block, hrange, of_decide_eq_true hin⟩⟩
      · cases hblock
  · rintro ⟨formula, hformula, hmem | ⟨a, ha, block, hrange, hin⟩⟩
    · exact Or.inl ⟨formula, hformula, hmem⟩
    · refine Or.inr ?_
      rw [ha]
      exact List.any_eq_true.mpr ⟨block, (h.blocks reader block).mpr ⟨formula, hformula, hrange⟩,
        decide_eq_true hin⟩

end DependencyGraph

end Spreadsheet
