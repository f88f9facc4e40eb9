import Spreadsheet.Proofs.Edit.Cell
import Spreadsheet.Proofs.Evaluate.Blank

/-!
# What a Style Does to Values

Changing how a cell looks leaves the other values alone, as far as it can.

A style is not looked at by formulas. But a cell may be kept for its style alone, and
then it is one of the cells of a block, with an empty text in it: the edit that gives
it its first attribute adds it, and the one that takes away the last drops it. Most
functions do not notice, since they ignore empty texts. Those that tell their arguments
by their places do, and what follows in the block is moved by one place.

So a value can change only through such a function: if the cell was added or dropped,
then in a formula that passes a range with the cell to a positional function, or in one
that reads its way there (`Cells.MindsPresence`). The other formulas make a region that
is closed under reading, and in it the two sheets hold the same formulas and show the
same values, where an absent cell shows an empty text.

## Main definitions

* `Cells.SameUpToBlank`: The same cells, apart from one that may be blank or absent.
* `Cells.MindsPresence`: A cell may notice whether another one is there.

## Theorems

* `Cells.SameUpToBlank.agreeAt`: What does not mind shows the same after the pass.
* `Sheet.applyStyle_computedAt`: What a change of style leaves alone.
* `Sheet.not_applyStyle_computedAt`: But not everything.
-/

namespace Spreadsheet

namespace Cells

/-- Two collections of cells hold the same input, apart from one cell that may have
    nothing in it in one of them and be absent in the other. -/
structure SameUpToBlank (id : String) (a b : Cells) : Prop where
  /-- The other cells are there in both or in neither. -/
  others : ∀ id', id' ≠ id → (a.get? id').map Cell.input = (b.get? id').map Cell.input
  /-- The one has the same in it, nothing if it is absent. -/
  input : ((a.get? id).map Cell.input).getD ("", none)
    = ((b.get? id).map Cell.input).getD ("", none)

/-- Whether the cell `id` is there may be noticed by `id'`: its formula passes a range
    with the cell to a positional function, or it reads its way to such a formula. -/
def MindsPresence (cells : Cells) (id id' : String) : Prop :=
  ∃ user formula, (cells.get? user).bind Cell.formula? = some formula ∧
    Formula.Passes Builtin.IsPositionalName formula id ∧
    Relation.ReflTransGen (DependencyGraph.ofCells cells).Edge id' user

variable {cells a b : Cells} {id id' : String}

namespace MindsPresence

/-- What reads a cell that minds minds as well. -/
theorem of_reads {formula id'' : String}
    (hformula : (cells.get? id').bind Cell.formula? = some formula)
    (hreads : Formula.Reads formula id'') (h : cells.MindsPresence id id'') :
    cells.MindsPresence id id' := by
  rcases h with ⟨user, formula', hformula', hpasses, hpath⟩
  refine ⟨user, formula', hformula', hpasses, ?_⟩
  have hkey : ∀ {x : String} {formula : String}, (cells.get? x).bind Cell.formula? = some formula →
      x ∈ (DependencyGraph.ofCells cells).formulas.keys := fun h =>
    (OrderedMap.mem_keys_iff _).mpr ⟨_, (DependencyGraph.formulas_ofCells _ _).trans h⟩
  have hedge : id'' ∈ (DependencyGraph.ofCells cells).formulas.keys →
      (DependencyGraph.ofCells cells).Edge id' id'' :=
    edge_of_reads ((DependencyGraph.formulas_ofCells _ _).trans hformula) hreads
  -- The cell that is read is a formula, because the path starts there.
  rcases Relation.ReflTransGen.cases_head hpath with rfl | ⟨next, hfirst, _⟩
  · exact .single (hedge (hkey hformula'))
  · exact .head (hedge hfirst.1) hpath

/-- A cell that reads no formula minds only for what its own formula passes. -/
theorem passes (h : cells.MindsPresence id id')
    (hnone : ∀ next ∈ (DependencyGraph.ofCells cells).formulas.keys,
      ¬ (DependencyGraph.ofCells cells).isReader id' next) :
    ∃ formula, (cells.get? id').bind Cell.formula? = some formula ∧
      Formula.Passes Builtin.IsPositionalName formula id := by
  rcases h with ⟨user, formula, hformula, hpasses, hpath⟩
  rcases Relation.ReflTransGen.cases_head hpath with rfl | ⟨next, ⟨_, hkey, hreader⟩, _⟩
  · exact ⟨formula, hformula, hpasses⟩
  · exact absurd hreader (hnone next hkey)

end MindsPresence

namespace SameUpToBlank

theorem input_eq (h : SameUpToBlank id a b) (id' : String) :
    ((a.get? id').map Cell.input).getD ("", none)
      = ((b.get? id').map Cell.input).getD ("", none) := by
  by_cases hid : id' = id
  · rw [hid]
    exact h.input
  · rw [h.others id' hid]

theorem formula?_eq (h : SameUpToBlank id a b) (id' : String) :
    (a.get? id').bind Cell.formula? = (b.get? id').bind Cell.formula? := by
  have hsnd : ∀ cells : Cells, (cells.get? id').bind Cell.formula?
      = (((cells.get? id').map Cell.input).getD ("", none)).2 := by
    intro cells
    cases cells.get? id' <;> rfl
  rw [hsnd, hsnd, h.input_eq]

theorem not_mem_keys (h : SameUpToBlank id a b)
    (hkey : id' ∉ (DependencyGraph.ofCells a).formulas.keys) :
    id' ∉ (DependencyGraph.ofCells b).formulas.keys := by
  rwa [← OrderedMap.get?_eq_none_iff, DependencyGraph.formulas_ofCells, ← h.formula?_eq,
    ← DependencyGraph.formulas_ofCells, OrderedMap.get?_eq_none_iff]

/-- Recomputation shows the same for what is no formula, whether it is there or not. -/
theorem valueAt_eq (h : SameUpToBlank id a b) (functions : Registry) (hcovered : a.Covered)
    (hcovered' : b.Covered) (hkey : id' ∉ (DependencyGraph.ofCells a).formulas.keys) :
    (a.recompute functions).valueAt id' = (b.recompute functions).valueAt id' := by
  have hliteral : ∀ cells : Cells,
      ((cells.get? id').map fun c => Value.ofLiteral c.value).getD (.text "")
        = .ofLiteral (((cells.get? id').map Cell.input).getD ("", none)).1 := by
    intro cells
    cases cells.get? id' <;> rfl
  rw [valueAt, valueAt, (progress_recompute functions hcovered).get?_of_not_mem hkey,
    (progress_recompute functions hcovered').get?_of_not_mem (h.not_mem_keys hkey), hliteral,
    hliteral, h.input_eq]

/-- The other cells that are no formulas are there in both or in neither. -/
theorem agreeAt_of_not_mem (h : SameUpToBlank id a b) (functions : Registry)
    (hcovered : a.Covered) (hcovered' : b.Covered) (hne : id' ≠ id)
    (hkey : id' ∉ (DependencyGraph.ofCells a).formulas.keys) :
    AgreeAt (a.recompute functions) (b.recompute functions) id' := by
  have hliteral := congrArg (Option.map fun p => Value.ofLiteral p.1) (h.others id' hne)
  rw [Option.map_map, Option.map_map] at hliteral
  rw [AgreeAt, (progress_recompute functions hcovered).get?_of_not_mem hkey,
    (progress_recompute functions hcovered').get?_of_not_mem (h.not_mem_keys hkey)]
  exact hliteral

/-- What does not mind whether the cell is there shows the same after the pass. -/
theorem agreeAt (h : SameUpToBlank id a b) (hcovered : a.Covered) (hcovered' : b.Covered)
    (hne : id' ≠ id) (hmind : ¬ a.MindsPresence id id') :
    AgreeAt (a.recompute .builtins) (b.recompute .builtins) id' := by
  have hformulas : SameFormulasOn (fun x => ¬ a.MindsPresence id x) a b :=
    ⟨fun x _ => h.formula?_eq x, fun x hx formula hformula y hreads hy =>
      hx (hy.of_reads hformula hreads)⟩
  by_cases hkey : id' ∈ (DependencyGraph.ofCells a).formulas.keys
  · refine hformulas.agreeAt .builtins hcovered hcovered'
      (fun x hx formula hformula hplain hread => ?_) hmind hkey
    have hreads := isCovered_of_get? hcovered hformula
    refine Scope.evaluate_congr_of_valueAt Builtin.IsPositionalName
      (fun _ _ => Registry.ignoresBlanks_builtins) hreads hplain (fun y hy => ?_) fun y hy => ?_
    · by_cases hkey' : y ∈ (DependencyGraph.ofCells a).formulas.keys
      · exact (hread y hy hkey').valueAt
      · exact h.valueAt_eq .builtins hcovered hcovered' hkey'
    · -- The formula does not pass the cell, so what it passes is there in both or in neither.
      have hne' : y ≠ id := by
        rintro rfl
        exact hx ⟨x, formula, by rw [← DependencyGraph.formulas_ofCells, hformula], hy, .refl⟩
      by_cases hkey' : y ∈ (DependencyGraph.ofCells a).formulas.keys
      · rcases hy with ⟨cs, hcs, hpasses⟩
        exact hread y (hreads cs hcs y hpasses.consults) hkey'
      · exact h.agreeAt_of_not_mem .builtins hcovered hcovered' hne' hkey'
  · exact h.agreeAt_of_not_mem .builtins hcovered hcovered' hne hkey

end SameUpToBlank

theorem contains_recompute (functions : Registry) (cells : Cells) (id : String) :
    (cells.recompute functions).contains id = cells.contains id := by
  have hentry := congrArg Option.isSome ((sameEntries_recompute functions cells).entry id)
  rwa [Option.isSome_map, Option.isSome_map] at hentry

/-- Changing a style leaves the same cells, apart from one that may be blank in one of
    them and absent in the other. -/
theorem sameUpToBlank_restyle (a : Address) (changes : List (String × Json)) (cells : Cells)
    (id : String) : SameUpToBlank id cells ((CellEdit.restyle a changes).onCells id cells) where
  others := fun id' hid => by rw [CellEdit.get?_onCells_of_ne _ hid]
  input := by
    have hinput : ((cells.get? id).map Cell.input).getD ("", none)
        = ((CellEdit.restyle a changes).cell (cells.get? id)).input := by
      cases cells.get? id <;> rfl
    rw [hinput, CellEdit.onCells, get?_put_self]
    split
    · -- The cell is dropped, because there is nothing in it.
      rename_i hempty
      rw [Cell.isEmpty, Bool.and_eq_true, Bool.and_eq_true, Bool.not_eq_true'] at hempty
      rw [Cell.input, String.isEmpty_iff.mp hempty.1.1,
        Option.isNone_iff_eq_none.mp (Option.isSome_eq_false_iff.mp hempty.1.2)]
      rfl
    · rfl

/-- If the cell is there in both or in neither, the input is the same. -/
theorem SameUpToBlank.sameInput (h : SameUpToBlank id a b)
    (hcontains : b.contains id = a.contains id) : SameInput a b := by
  intro id'
  by_cases hid : id' = id
  · have hinput := h.input
    rw [hid]
    rw [OrderedMap.contains, OrderedMap.contains] at hcontains
    cases ha : a.get? id with
    | none =>
        rw [ha] at hcontains
        rw [Option.isNone_iff_eq_none.mp (Option.isSome_eq_false_iff.mp hcontains)]
    | some c =>
        rw [ha] at hcontains
        rcases Option.isSome_iff_exists.mp hcontains with ⟨c', hb⟩
        rw [ha, hb] at hinput
        rw [hb]
        exact congrArg some hinput
  · exact h.others id' hid

end Cells

namespace Sheet

/-- A change of style leaves the computed values of the other cells alone, if it neither
    adds nor drops the cell, and otherwise for those that do not mind. -/
theorem applyStyle_computedAt {sheet : Sheet}
    (hrecomputed : ∃ raw : Sheet, sheet = raw.recompute .builtins) (hregular : sheet.IsRegular)
    {a : Address} {id : String} (hid : a.toId = .ok id) {changes : List (String × Json)}
    (hknown : ∀ change ∈ changes, (Attribute.ofName? change.1).isSome = true) :
    ∃ styled, sheet.applyStyle a changes = .ok styled ∧
      ∀ id', id' ≠ id →
        (styled.cells.contains id = sheet.cells.contains id ∨ ¬ sheet.cells.MindsPresence id id') →
          styled.cells.computedAt id' = sheet.cells.computedAt id' := by
  have hstyled : (CellEdit.restyle a changes).apply sheet = .ok _ :=
    CellEdit.apply_eq_ok_iff.mpr ⟨hknown, id, hid, rfl⟩
  refine ⟨_, hstyled, fun id' hne hcases => ?_⟩
  have hblank := Cells.sameUpToBlank_restyle a changes sheet.cells id
  have hcovered := hregular.covered
  have hcovered' : ((CellEdit.restyle a changes).onCells id sheet.cells).Covered :=
    CellEdit.covered_onCells hcovered (show CellEdit.IsRegular (.restyle a changes) from trivial) id
  -- The values before are those that are found anew.
  have hself : sheet.cells.recompute .builtins = sheet.cells := by
    rcases hrecomputed with ⟨raw, rfl⟩
    exact Cells.recompute_recompute .builtins
      ((Cells.sameEntries_recompute .builtins raw.cells).sameInput.covered hcovered)
  show (Cells.recompute .builtins ((CellEdit.restyle a changes).onCells id sheet.cells)).computedAt
    id' = _
  rw [← congrArg (fun cells => Cells.computedAt cells id') hself]
  rcases hcases with hcontains | hmind
  · have hsame := Cells.contains_recompute .builtins
      ((CellEdit.restyle a changes).onCells id sheet.cells) id
    have hinput := hblank.sameInput (hsame.symm.trans hcontains)
    exact (hinput.computedAt_eq .builtins hcovered id').symm
  · rw [← Cells.computedAt_recompute .builtins hcovered,
      ← Cells.computedAt_recompute .builtins hcovered']
    exact (hblank.agreeAt hcovered hcovered' hne hmind).symm

/-- A block gets one more cell, for its style, and a sum over the block stays. -/
theorem applyStyle_computedAt_sum :
    let raw : Sheet := { cells := .ofList [("A2", { value := "-0.5" }),
      ("B1", { formula := some "=SUM(A1:A2)" }), ("C1", { formula := some "=ROUND(A1:A2)" })] }
    let sheet := raw.recompute .builtins
    let changes : List (String × Json) := [("bold", .bool true)]
    sheet.IsRegular ∧ Address.toId ⟨0, 0⟩ = .ok "A1" ∧
      (∀ change ∈ changes, (Attribute.ofName? change.1).isSome = true) ∧
      ¬ sheet.cells.MindsPresence "A1" "B1" ∧
      ∃ styled, sheet.applyStyle ⟨0, 0⟩ changes = .ok styled ∧
        styled.cells.computedAt "B1" = sheet.cells.computedAt "B1" := by
  intro raw sheet changes
  have hregular : sheet.IsRegular := by decide +kernel
  have hid : Address.toId ⟨0, 0⟩ = .ok "A1" := by decide +kernel
  have hknown : ∀ change ∈ changes, (Attribute.ofName? change.1).isSome = true := by
    decide +kernel
  have hmind : ¬ sheet.cells.MindsPresence "A1" "B1" := by
    -- The sum reads no formula, so it would have to pass the range itself.
    intro hminds
    rcases hminds.passes (by decide +kernel) with ⟨formula, hformula, cs, hcs, hpasses⟩
    rw [show (sheet.cells.get? "B1").bind Cell.formula? = some "=SUM(A1:A2)" by decide +kernel,
      Option.some.injEq] at hformula
    rw [← hformula] at hcs
    have hform : Form.ofTrimmed (Text.trim cs) = .call "SUM" "A1:A2".toList := by
      rw [← (List.cons.inj hcs).2]
      decide +kernel
    have hname : ¬ Builtin.IsPositionalName "SUM" := by
      rintro ⟨f, hf, hpositional⟩
      rw [show Builtin.ofName? "SUM" = some .sum by decide +kernel] at hf
      rw [← Option.some.inj hf] at hpositional
      cases hpositional
    rcases hpasses.exists_argument hform hname with ⟨arg, harg, hpasses⟩
    rw [show Call.arguments "A1:A2".toList = ["A1:A2".toList] by decide +kernel,
      List.mem_singleton] at harg
    rw [harg] at hpasses
    exact hpasses.parts_ne_nil (by decide +kernel)
  rcases applyStyle_computedAt ⟨raw, rfl⟩ hregular hid hknown with ⟨styled, hstyled, hframe⟩
  exact ⟨hregular, hid, hknown, hmind, styled, hstyled, hframe "B1" (by decide) (Or.inr hmind)⟩

/-- A cell that is added for its style is the first in a block, and the only one that a
    positional function looks at. -/
theorem not_applyStyle_computedAt :
    ¬ ∀ sheet : Sheet, (∃ raw : Sheet, sheet = raw.recompute .builtins) → sheet.IsRegular →
      ∀ (a : Address) (id : String) (changes : List (String × Json)) (styled : Sheet),
        a.toId = .ok id → sheet.applyStyle a changes = .ok styled →
        ∀ id', id' ≠ id → styled.cells.computedAt id' = sheet.cells.computedAt id' := by
  intro hframe
  let raw : Sheet := { cells := .ofList [("A2", { value := "x" }),
    ("B1", { formula := some "=UPPER(A1:A2)" })] }
  have hregular : (raw.recompute .builtins).IsRegular := by decide +kernel
  have hid : Address.toId ⟨0, 0⟩ = .ok "A1" := by decide +kernel
  have hstyled : (raw.recompute .builtins).applyStyle ⟨0, 0⟩ [("bold", .bool true)] = .ok _ :=
    applyStyle_eq_ok_iff.mpr ⟨by decide +kernel, "A1", hid, rfl⟩
  have hsame := hframe _ ⟨raw, rfl⟩ hregular _ _ _ _ hid hstyled "B1" (by decide)
  exact absurd hsame (by decide +kernel)

end Sheet

end Spreadsheet
