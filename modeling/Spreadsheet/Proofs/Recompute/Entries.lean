import Spreadsheet.Proofs.Recompute.Input

/-!
# Recomputing Between Edits

Recomputation changes nothing but computed values, and none of the old ones lives
on in the new ones.

Two collections of cells have the same entries if they name the same cells in the
same order and hold the same literals, formulas and styles (`Cells.SameEntries`).
Recomputation does not leave this relation, typing a text keeps it, and for covered
formulas two collections that are so related are recomputed to the very same cells.
So it does not matter whether the values are found anew after each of several texts
or only after the last one.

## Main definitions

* `Cells.SameEntries`: The same cells apart from the values found for them.
* `Cells.put`: One cell replaced.
* `Cells.typed`: Several texts typed into cells, one after the other.
* `Formula.IsRegularText`: A text that is no formula, or a regular one.

## Theorems

* `sameEntries_recompute`: Recomputation changes nothing but computed values.
* `SameEntries.recompute_eq`: The result depends on the entries only.
* `SameEntries.putText`, `SameEntries.typed`: Typing keeps the relation.
* `recompute_putText_recompute`: Values found before a text was typed are forgotten.
* `covered_recompute`, `covered_typed`: What keeps the formulas covered.
-/

namespace Spreadsheet

namespace Cells

/-- Two collections of cells are the same apart from the values found for them. -/
structure SameEntries (a b : Cells) : Prop where
  /-- The same cells are named, in the same order. -/
  keys : a.keys = b.keys
  /-- The same was entered in each. -/
  entry : ∀ id, (a.get? id).map Cell.entry = (b.get? id).map Cell.entry

/-- The cells with several texts typed into them, one after the other. -/
def typed (edits : List (String × String)) (cells : Cells) : Cells :=
  edits.foldl (fun cells edit => cells.putText edit.1 edit.2) cells

variable {a b c : Cells}

/-- A cell is what was entered in it and the value found for it. -/
theorem get?_eq_of_entry {id : String}
    (hentry : (a.get? id).map Cell.entry = (b.get? id).map Cell.entry)
    (hcomputed : a.computedAt id = b.computedAt id) : a.get? id = b.get? id := by
  rw [computedAt, computedAt] at hcomputed
  cases hget : a.get? id with
  | none =>
      rw [hget, Option.map_none] at hentry
      exact (Option.map_eq_none_iff.mp hentry.symm).symm
  | some cell =>
      rw [hget, Option.map_some] at hentry
      rcases Option.map_eq_some_iff.mp hentry.symm with ⟨cell', hget', hcell⟩
      rw [hget, hget', Option.bind_some, Option.bind_some] at hcomputed
      rw [hget', Option.some.injEq]
      calc cell = { cell.entry with computed := cell.computed } := rfl
        _ = { cell'.entry with computed := cell'.computed } := by rw [hcell, hcomputed]
        _ = cell' := rfl

namespace SameEntries

theorem refl (a : Cells) : SameEntries a a := ⟨rfl, fun _ => rfl⟩

theorem symm (h : SameEntries a b) : SameEntries b a := ⟨h.keys.symm, fun id => (h.entry id).symm⟩

theorem trans (h : SameEntries a b) (h' : SameEntries b c) : SameEntries a c :=
  ⟨h.keys.trans h'.keys, fun id => (h.entry id).trans (h'.entry id)⟩

theorem sameInput (h : SameEntries a b) : SameInput a b := by
  intro id
  have hinput := congrArg (Option.map Cell.input) (h.entry id)
  rw [Option.map_map, Option.map_map] at hinput
  exact hinput

theorem style_eq (h : SameEntries a b) (id : String) :
    (a.get? id).bind Cell.style = (b.get? id).bind Cell.style := by
  have hstyle := congrArg (fun c => c.bind Cell.style) (h.entry id)
  simp only [Option.bind_map] at hstyle
  exact hstyle

/-- Whether there is anything in a cell shows in its entry. -/
theorem isEmpty_eq_false (h : SameEntries a b) {id : String}
    (hb : ∀ cell, b.get? id = some cell → cell.isEmpty = false) :
    ∀ cell, a.get? id = some cell → cell.isEmpty = false := by
  intro cell hget
  have hentry := h.entry id
  rw [hget] at hentry
  rcases Option.map_eq_some_iff.mp hentry.symm with ⟨cell', hget', hcell⟩
  calc cell.isEmpty = cell.entry.isEmpty := rfl
    _ = cell'.entry.isEmpty := by rw [hcell]
    _ = false := hb cell' hget'

/-- The same entries have the same formulas, in the same order. -/
theorem formulasOf_eq (h : SameEntries a b) :
    DependencyGraph.formulasOf a = DependencyGraph.formulasOf b := by
  -- The formulas can be read off the keys and the look-ups.
  have hkeys : ∀ cells : Cells, DependencyGraph.formulasOf cells
      = cells.keys.filterMap fun id =>
          ((cells.get? id).bind Cell.formula?).map fun formula => (id, formula) := by
    intro cells
    rw [DependencyGraph.formulasOf, OrderedMap.keys, List.filterMap_map]
    refine List.filterMap_congr fun e he => ?_
    rw [Function.comp_apply, (OrderedMap.get?_eq_some_iff cells).mpr he, Option.bind_some]
  rw [hkeys, hkeys, h.keys]
  refine List.filterMap_congr fun id _ => ?_
  rw [h.sameInput.on_univ.formula?_eq (Set.mem_univ id)]

/-- With the computed values the cells are the same altogether. -/
theorem eq_of_computedAt (h : SameEntries a b)
    (hcomputed : ∀ id, a.computedAt id = b.computedAt id) : a = b :=
  OrderedMap.ext_get? h.keys fun id => get?_eq_of_entry (h.entry id) (hcomputed id)

end SameEntries

theorem keys_setComputed (cells : Cells) (id : String) (v : Value) :
    (cells.setComputed id v).keys = cells.keys := by
  rw [setComputed]
  cases hget : cells.get? id with
  | none => rfl
  | some c =>
      have hmem : id ∈ cells.keys := (OrderedMap.mem_keys_iff cells).mpr ⟨c, hget⟩
      exact (OrderedMap.keys_insert _ _ _).trans (if_pos hmem)

theorem sameEntries_setComputed (cells : Cells) (id : String) (v : Value) :
    SameEntries (cells.setComputed id v) cells :=
  ⟨keys_setComputed cells id v, fun id' => entry_setComputed cells id id' v⟩

theorem sameEntries_resolveLiterals (cells : Cells) : SameEntries cells.resolveLiterals cells where
  keys := OrderedMap.keys_mapValues _ _
  entry := (progress_resolveLiterals .builtins cells).entry

theorem sameEntries_evaluateAt (functions : Registry) (graph : DependencyGraph) (cells : Cells)
    (id : String) : SameEntries (cells.evaluateAt functions graph id) cells := by
  rw [evaluateAt]
  cases graph.formulas.get? id with
  | none => exact .refl cells
  | some formula => exact sameEntries_setComputed _ _ _

theorem sameEntries_foldl {step : Cells → String → Cells}
    (hstep : ∀ cells id, SameEntries (step cells id) cells) (ids : List String) (cells : Cells) :
    SameEntries (ids.foldl step cells) cells := by
  induction ids generalizing cells with
  | nil => exact .refl cells
  | cons id ids ih => exact (ih (step cells id)).trans (hstep cells id)

theorem sameEntries_calculate (functions : Registry) (graph : DependencyGraph) (cells : Cells) :
    SameEntries (cells.calculate functions graph) cells :=
  (sameEntries_foldl (fun cells id => sameEntries_setComputed cells id _) _ _).trans
    (sameEntries_foldl (sameEntries_evaluateAt functions graph) _ _)

/-- Recomputation changes nothing but computed values. -/
theorem sameEntries_recompute (functions : Registry) (cells : Cells) :
    SameEntries (cells.recompute functions) cells :=
  (sameEntries_calculate functions _ _).trans (sameEntries_resolveLiterals cells)

/-- The graph after a recomputation is the one that it went by. -/
theorem ofCells_recompute (functions : Registry) (cells : Cells) :
    DependencyGraph.ofCells (cells.recompute functions) = DependencyGraph.ofCells cells := by
  rw [DependencyGraph.ofCells, (sameEntries_recompute functions cells).formulasOf_eq]
  rfl

/-- What recomputation comes to depends on the entries only. -/
theorem SameEntries.recompute_eq (h : SameEntries a b) (functions : Registry)
    (hcovered : a.Covered) : a.recompute functions = b.recompute functions :=
  SameEntries.eq_of_computedAt
    (((sameEntries_recompute functions a).trans h).trans (sameEntries_recompute functions b).symm)
    (h.sameInput.computedAt_eq functions hcovered)

theorem covered_recompute {functions : Registry} {cells : Cells} (h : cells.Covered) :
    (cells.recompute functions).Covered :=
  (sameEntries_recompute functions cells).symm.sameInput.covered h

/-- Values that are found anew are the same. -/
theorem recompute_recompute (functions : Registry) {cells : Cells} (h : cells.Covered) :
    (cells.recompute functions).recompute functions = cells.recompute functions :=
  (sameEntries_recompute functions cells).recompute_eq functions (covered_recompute h)

/-- Where all literals have their values, finding them changes nothing. -/
theorem resolveLiterals_recompute (functions : Registry) {cells : Cells} (h : cells.Covered) :
    (cells.recompute functions).resolveLiterals = cells.recompute functions := by
  -- The names are the same, so it is enough to look at each cell.
  refine OrderedMap.ext_get? (OrderedMap.keys_mapValues _ _) fun id => ?_
  rw [resolveLiterals, OrderedMap.get?_mapValues]
  cases hget : (cells.recompute functions).get? id with
  | none => rfl
  | some c =>
      rw [Option.map_some]
      by_cases hformula : c.isFormula = true
      · rw [if_pos hformula]
      · rw [if_neg hformula, ← (progress_recompute functions h).literal id c hget
          ((Bool.not_eq_true _).mp hformula)]

/-- The cells with one of them replaced. A cell that is left empty is removed. -/
def put (cells : Cells) (id : String) (c : Cell) : Cells :=
  if c.isEmpty then cells.erase id else cells.insert id c

/-- The cell that was replaced is the new one, if there is anything in it. -/
theorem get?_put_self (cells : Cells) (id : String) (c : Cell) :
    (cells.put id c).get? id = if c.isEmpty then none else some c := by
  rw [put]
  split
  · exact OrderedMap.get?_erase_self _ _
  · exact OrderedMap.get?_insert_self _ _ _

/-- The other cells stay as they are. -/
theorem get?_put_of_ne (cells : Cells) {id id' : String} (c : Cell) (h : id' ≠ id) :
    (cells.put id c).get? id' = cells.get? id' := by
  rw [put]
  split
  · exact OrderedMap.get?_erase_of_ne _ h
  · exact OrderedMap.get?_insert_of_ne _ _ h

/-- The cell that is typed into holds the text, if that leaves anything in it. -/
theorem get?_putText_self (cells : Cells) (id text : String) :
    (cells.putText id text).get? id
      = let cell := Cell.ofText text ((cells.get? id).bind Cell.style)
        if cell.isEmpty then none else some cell :=
  get?_put_self cells id _

theorem get?_putText_of_ne (cells : Cells) {id id' : String} (text : String) (h : id' ≠ id) :
    (cells.putText id text).get? id' = cells.get? id' :=
  get?_put_of_ne cells _ h

/-- Where a text is typed depends on which cells there are. -/
theorem SameEntries.putText (h : SameEntries a b) (id text : String) :
    SameEntries (a.putText id text) (b.putText id text) where
  keys := by
    rw [Cells.putText, Cells.putText, h.style_eq id]
    by_cases hempty : (Cell.ofText text ((b.get? id).bind Cell.style)).isEmpty = true
    · simp only [if_pos hempty]
      rw [OrderedMap.keys_erase, OrderedMap.keys_erase, h.keys]
    · simp only [if_neg hempty]
      rw [OrderedMap.keys_insert, OrderedMap.keys_insert, h.keys]
  entry := fun id' => by
    by_cases hid : id' = id
    · rw [hid, get?_putText_self, get?_putText_self, h.style_eq id]
    · rw [get?_putText_of_ne a text hid, get?_putText_of_ne b text hid, h.entry]

theorem SameEntries.typed (h : SameEntries a b) (edits : List (String × String)) :
    SameEntries (a.typed edits) (b.typed edits) := by
  induction edits generalizing a b with
  | nil => exact h
  | cons edit edits ih => exact ih (h.putText edit.1 edit.2)

/-- Cells that no text is typed into stay as they are. -/
theorem get?_typed_of_not_mem {edits : List (String × String)} {id : String}
    (h : id ∉ edits.map Prod.fst) (cells : Cells) :
    (cells.typed edits).get? id = cells.get? id := by
  induction edits generalizing cells with
  | nil => rfl
  | cons edit edits ih =>
      rw [List.map_cons, List.mem_cons, not_or] at h
      exact (ih h.2 (cells.putText edit.1 edit.2)).trans (get?_putText_of_ne cells edit.2 h.1)

end Cells

/-- A text that is no formula, or a regular one. -/
def Formula.IsRegularText (text : String) : Prop :=
  text.toList.head? = some '=' → Formula.IsRegular text

instance (text : String) : Decidable (Formula.IsRegularText text) :=
  inferInstanceAs (Decidable (_ → _))

/-- The formula of a cell that was typed in is the text. -/
theorem Cell.formula?_ofText {text formula : String} {style : Option Style}
    (h : (Cell.ofText text style).formula? = some formula) :
    text.toList.head? = some '=' ∧ formula = text := by
  unfold Cell.ofText at h
  by_cases hhead : text.toList.head? = some '='
  · rw [if_pos hhead] at h
    exact ⟨hhead, (Option.some.inj (Option.eq_some_of_filter_eq_some h)).symm⟩
  · rw [if_neg hhead] at h
    cases h

namespace Cells

/-- Typing regular texts keeps the formulas covered. -/
theorem covered_putText {cells : Cells} (h : cells.Covered) (id : String) {text : String}
    (htext : Formula.IsRegularText text) : (cells.putText id text).Covered := by
  intro id' c formula hget hformula
  by_cases hid : id' = id
  · rw [hid, get?_putText_self] at hget
    rcases Option.ite_none_left_eq_some.mp hget with ⟨_, hcell⟩
    rw [← Option.some.inj hcell] at hformula
    rcases Cell.formula?_ofText hformula with ⟨hhead, rfl⟩
    exact Formula.isCovered_of_isRegular (htext hhead)
  · rw [get?_putText_of_ne cells text hid] at hget
    exact h id' c formula hget hformula

theorem covered_typed {cells : Cells} (h : cells.Covered) {edits : List (String × String)}
    (htexts : ∀ edit ∈ edits, Formula.IsRegularText edit.2) : (cells.typed edits).Covered := by
  induction edits generalizing cells with
  | nil => exact h
  | cons edit edits ih =>
      exact ih (covered_putText h edit.1 (htexts edit List.mem_cons_self))
        fun edit' hedit' => htexts edit' (List.mem_cons_of_mem _ hedit')

/-- Values found before a text was typed are forgotten. -/
theorem recompute_putText_recompute (functions : Registry) {cells : Cells} (h : cells.Covered)
    (id : String) {text : String} (htext : Formula.IsRegularText text) :
    ((cells.recompute functions).putText id text).recompute functions
      = (cells.putText id text).recompute functions :=
  ((sameEntries_recompute functions cells).putText id text).recompute_eq functions
    (covered_putText (covered_recompute h) id htext)

end Cells

end Spreadsheet
