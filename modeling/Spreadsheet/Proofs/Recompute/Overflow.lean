import Spreadsheet.Proofs.Evaluate.Overflow
import Spreadsheet.Proofs.Recompute.Pass

/-!
# Overflow in a Sheet

Which cells show a double that is not finite after a recomputation.

Such a double comes from digits that were written, as a literal or as a whole formula,
and is handed on by formulas that are the name of a cell and nothing else. Along these
a cell overflows (`Cells.Overflows`), and it is shown by exactly the cells that do. The
values that the cells had before play no part, whatever they were: the one cell that
such a formula hands on is all that it reads, so it was written to in the same pass.
This also keeps the formulas that overflow from being blocked, so that the pass comes
to them.

## Main definitions

* `Cells.Overflows`: The entry of a cell comes to a double that is not finite.
* `Cells.Traced`: The invariant of the pass.
* `Sheet.StaysFinite`: No such double is shown after a recomputation.

## Theorems

* `mem_order_of_overflows`: A formula that overflows has a place in the order.
* `Traced.setComputed`: One more formula cell is written to.
* `Sheet.overflows_recompute_iff`: What overflows after a recomputation.
-/

namespace Spreadsheet

namespace Cells

/-- What was entered in a cell comes to a double that is infinite or not a number. -/
inductive Overflows (cells : Cells) : String → Prop
  /-- A literal that spells such a number. -/
  | literal {id : String} {c : Cell} (get : cells.get? id = some c) (entered : c.formula? = none)
      (value : (Value.ofLiteral c.value).Overflows) : Overflows cells id
  /-- A formula that is such a number. -/
  | number {id formula : String} {n : Number}
      (get : (cells.get? id).bind Cell.formula? = some formula)
      (form : Formula.HasForm formula (.number n)) (value : (Value.number n).Overflows) :
      Overflows cells id
  /-- A formula that is the name of a cell with such an entry. -/
  | cell {id formula name : String} (get : (cells.get? id).bind Cell.formula? = some formula)
      (form : Formula.HasForm formula (.cell name)) (value : Overflows cells name) :
      Overflows cells id

/-- What is known after the formula cells in `done` were written to, with the cells as
    they are in `current`. -/
structure Traced (cells : Cells) (done : List String) (current : Cells) : Prop where
  /-- What was entered is still there. -/
  entry : ∀ id, (current.get? id).map Cell.entry = (cells.get? id).map Cell.entry
  /-- Literals have their values. -/
  literal : ∀ id c, current.get? id = some c → c.isFormula = false →
    c.computed = some (.ofLiteral c.value)
  /-- The formula cells that were written to have values, which overflow as entered. -/
  traced : ∀ id ∈ done, ∃ v, current.computedAt id = some v ∧ (v.Overflows ↔ cells.Overflows id)

variable {functions : Registry} {cells current : Cells} {done : List String} {id : String}

/-- For a formula, only the form of its expression decides. -/
theorem overflows_iff_of_formula {formula : String}
    (hget : (cells.get? id).bind Cell.formula? = some formula) :
    cells.Overflows id ↔
      (∃ n, Formula.HasForm formula (.number n) ∧ (Value.number n).Overflows) ∨
        ∃ name, Formula.HasForm formula (.cell name) ∧ cells.Overflows name := by
  constructor
  · intro h
    -- Only the entry that the cell has can make it overflow.
    cases h with
    | literal hget' hentered =>
        rw [hget', Option.bind_some, hentered] at hget
        cases hget
    | number hget' hform hvalue =>
        rw [hget, Option.some.injEq] at hget'
        exact Or.inl ⟨_, hget' ▸ hform, hvalue⟩
    | cell hget' hform hvalue =>
        rw [hget, Option.some.injEq] at hget'
        exact Or.inr ⟨_, hget' ▸ hform, hvalue⟩
  · rintro (⟨n, hform, hvalue⟩ | ⟨name, hform, hvalue⟩)
    · exact .number hget hform hvalue
    · exact .cell hget hform hvalue

theorem overflows_iff_of_literal (hget : (cells.get? id).bind Cell.formula? = none) :
    cells.Overflows id ↔ ∃ c, cells.get? id = some c ∧ (Value.ofLiteral c.value).Overflows := by
  constructor
  · intro h
    cases h with
    | literal hget' _ hvalue => exact ⟨_, hget', hvalue⟩
    | number hget' =>
        rw [hget] at hget'
        cases hget'
    | cell hget' =>
        rw [hget] at hget'
        cases hget'
  · rintro ⟨c, hc, hvalue⟩
    rw [hc, Option.bind_some] at hget
    exact .literal hc hget hvalue

/-- A formula that overflows reads at most one cell, and this overflows too, so the
    formula has a place in the order. -/
theorem mem_order_of_overflows (h : cells.Overflows id)
    (hkey : id ∈ (DependencyGraph.ofCells cells).formulas.keys) :
    id ∈ (DependencyGraph.ofCells cells).order := by
  -- Edges lead from a formula to what it reads.
  have hedge : ∀ {id id' formula}, (cells.get? id).bind Cell.formula? = some formula →
      (DependencyGraph.ofCells cells).Edge id id' → Formula.Reads formula id' := by
    intro id id' formula hget hedge
    rcases (DependencyGraph.isExact_ofCells cells).isReader_iff.mp hedge.2.2 with
      ⟨formula', hformula', hreads⟩
    rw [DependencyGraph.formulas_ofCells, hget] at hformula'
    rwa [Option.some.inj hformula']
  induction h with
  | literal hget hentered _ =>
      rcases (OrderedMap.mem_keys_iff _).mp hkey with ⟨formula, hformula⟩
      rw [DependencyGraph.formulas_ofCells, hget, Option.bind_some, hentered] at hformula
      cases hformula
  | number hget hform _ =>
      refine DependencyGraph.mem_order_iff.mpr ⟨hkey, fun id' hid' => ?_⟩
      exact absurd (hedge hget hid') hform.not_reads
  | cell hget hform _ ih =>
      refine DependencyGraph.mem_order_iff.mpr ⟨hkey, fun id' hid' => ?_⟩
      rw [hform.reads_iff.mp (hedge hget hid')]
      exact ih (by rw [← hform.reads_iff.mp (hedge hget hid')]; exact hid'.2.1)

/-- At the start the literals have their values. -/
theorem traced_resolveLiterals (cells : Cells) : Traced cells [] cells.resolveLiterals where
  entry := (progress_resolveLiterals .builtins cells).entry
  literal := (progress_resolveLiterals .builtins cells).literal
  traced := fun id hid => by cases hid

namespace Traced

/-- A cell shows what overflows as entered, if it is no formula that is still to be
    written to. -/
theorem valueAt (h : Traced cells done current)
    (hid : id ∈ (DependencyGraph.ofCells cells).formulas.keys → id ∈ done) :
    (current.valueAt id).Overflows ↔ cells.Overflows id := by
  by_cases hkey : id ∈ (DependencyGraph.ofCells cells).formulas.keys
  · rcases h.traced id (hid hkey) with ⟨v, hv, hiff⟩
    rwa [valueAt_of_computedAt hv]
  · have hnone : (cells.get? id).bind Cell.formula? = none := by
      rwa [← DependencyGraph.formulas_ofCells, OrderedMap.get?_eq_none_iff]
    have hprogress : Progress .builtins cells [] current :=
      ⟨h.entry, h.literal, fun id hid => by cases hid⟩
    rw [overflows_iff_of_literal hnone, Cells.valueAt, hprogress.get?_of_not_mem hkey]
    cases cells.get? id with
    | none =>
        refine iff_of_false (Value.not_overflows_text "") ?_
        rintro ⟨c, hc, _⟩
        cases hc
    | some c =>
        simp only [Option.map_some, Option.getD_some, Option.some.injEq, exists_eq_left']

/-- One more formula cell is written to, with a value that overflows as entered. -/
theorem setComputed (h : Traced cells done current)
    (hkey : id ∈ (DependencyGraph.ofCells cells).formulas.keys) {v : Value}
    (hv : v.Overflows ↔ cells.Overflows id) :
    Traced cells (done ++ [id]) (current.setComputed id v) where
  entry := fun id' => by rw [entry_setComputed, h.entry]
  literal := literal_setComputed h.entry h.literal hkey v
  traced := by
    rcases exists_of_mem_keys h.entry hkey with ⟨c, _, hc, _⟩
    exact computedAt_setComputed_append
      (P := fun id o => ∃ v, o = some v ∧ (v.Overflows ↔ cells.Overflows id))
      h.traced hc ⟨v, rfl, hv⟩

end Traced

/-- After the pass every formula, in the order or blocked, was written to. -/
theorem traced_recompute (functions : Registry) (cells : Cells) :
    Traced cells ((DependencyGraph.ofCells cells).order ++ (DependencyGraph.ofCells cells).blocked)
      (cells.recompute functions) := by
  refine recompute_induction (traced_resolveLiterals cells) ?_ ?_
  · -- A formula that hands on a cell stands behind it.
    intro done id rest current formula horder hformula htraced
    refine htraced.setComputed ((OrderedMap.mem_keys_iff _).mpr ⟨formula, hformula⟩) ?_
    have hget := hformula
    rw [DependencyGraph.formulas_ofCells] at hget
    rw [Scope.overflows_evaluate_iff, overflows_iff_of_formula hget]
    refine or_congr_right (exists_congr fun name => and_congr_right fun hform => ?_)
    exact htraced.valueAt fun hname => DependencyGraph.mem_front_of_order horder
      (edge_of_reads hformula (hform.reads_iff.mpr rfl) hname)
  · -- The blocked formulas do not overflow, and neither does the error written to their cells.
    intro done id current hblocked htraced
    have hid := DependencyGraph.mem_blocked.mp hblocked
    exact htraced.setComputed hid.1 (iff_of_false (Value.not_overflows_of_isError rfl)
      fun hover => hid.2 (mem_order_of_overflows hover hid.1))

/-- After a recomputation, the cells that show an overflow are those whose entries
    overflow. -/
theorem overflows_valueAt_recompute_iff (functions : Registry) (cells : Cells) (id : String) :
    ((cells.recompute functions).valueAt id).Overflows ↔ cells.Overflows id := by
  exact (traced_recompute functions cells).valueAt mem_order_append_blocked

/-- What overflows after a recomputation is a computed value. -/
theorem exists_computedAt_recompute_iff (functions : Registry) (cells : Cells) (id : String) :
    (∃ v, (cells.recompute functions).computedAt id = some v ∧ v.Overflows) ↔
      cells.Overflows id := by
  rw [← overflows_valueAt_recompute_iff functions]
  constructor
  · rintro ⟨v, hv, hover⟩
    rwa [valueAt_of_computedAt hv]
  · intro h
    cases hget : (cells.recompute functions).get? id with
    | none =>
        rw [Cells.valueAt, hget] at h
        exact absurd h (Value.not_overflows_text "")
    | some c =>
        cases hcomputed : c.computed with
        | some v =>
            have hv : (cells.recompute functions).computedAt id = some v := by
              rw [computedAt, hget, Option.bind_some, hcomputed]
            exact ⟨v, hv, by rwa [← valueAt_of_computedAt hv]⟩
        | none =>
            -- A literal has its value, and a formula without one would show nothing.
            by_cases hformula : c.isFormula = true
            · rw [Cells.valueAt, hget, Option.map_some, Option.getD_some, Cell.currentValue,
                hcomputed, if_pos hformula] at h
              exact absurd h (Value.not_overflows_text "")
            · have hliteral := (traced_recompute functions cells).literal id c hget
                (by simpa only [Bool.not_eq_true] using hformula)
              rw [hcomputed] at hliteral
              cases hliteral

end Cells

namespace Sheet

/-- After a recomputation no formula shows a double that is infinite or not a number,
    and no text is evaluated to one. -/
def StaysFinite (sheet : Sheet) : Prop :=
  (∀ id formula v, (sheet.cells.get? id).bind Cell.formula? = some formula →
    (sheet.recompute .builtins).cells.computedAt id = some v → ¬ v.Overflows) ∧
  ∀ text, ¬ ((sheet.recompute .builtins).evaluate .builtins text).Overflows

/-- After a recomputation with any functions, and whatever the cells showed before, the
    cells with an infinite value or one that is not a number are those whose entries
    come to one without computing: by digits that overflow, or by the name of such a
    cell. The texts that are evaluated to such a value are those too. -/
theorem overflows_recompute_iff (functions functions' : Registry) (sheet : Sheet) :
    (∀ id, (∃ v, (sheet.recompute functions).cells.computedAt id = some v ∧ v.Overflows) ↔
      sheet.cells.Overflows id) ∧
    ∀ text, ((sheet.recompute functions).evaluate functions' text).Overflows ↔
      (∃ n, Formula.HasForm text (.number n) ∧ (Value.number n).Overflows) ∨
        ∃ name, Formula.HasForm text (.cell name) ∧ sheet.cells.Overflows name := by
  refine ⟨Cells.exists_computedAt_recompute_iff functions sheet.cells, fun text => ?_⟩
  rw [Sheet.evaluate, Scope.overflows_evaluate_iff]
  exact or_congr_right (exists_congr fun name => and_congr_right fun _ =>
    Cells.overflows_valueAt_recompute_iff functions sheet.cells name)

/-- A formula of 309 nines shows infinity, in a sheet where nothing was computed before. -/
theorem not_staysFinite_digits :
    let formula := String.ofList ('=' :: List.replicate 309 '9')
    let sheet : Sheet := { cells := .ofList [("A1", { formula := some formula })] }
    (∀ e ∈ sheet.cells.entries, e.2.computed = none) ∧
      (∃ v, (sheet.recompute .builtins).cells.computedAt "A1" = some v ∧ v.Overflows) ∧
      ((sheet.recompute .builtins).evaluate .builtins formula).Overflows ∧
      ¬ sheet.StaysFinite := by
  intro formula sheet
  have hinfinite : (Value.number (.float Power.infinity)).Overflows := by decide +kernel
  have hform : Formula.HasForm formula (.number (.float Power.infinity)) :=
    ⟨List.replicate 309 '9', String.toList_ofList, by decide +kernel⟩
  have htext : ((sheet.recompute .builtins).evaluate .builtins formula).Overflows :=
    (Scope.overflows_evaluate_iff _ _).mpr (Or.inl ⟨_, hform, hinfinite⟩)
  have hcells : ∀ sheet : Sheet,
      (sheet.recompute .builtins).cells = sheet.cells.recompute .builtins := fun _ => rfl
  refine ⟨by decide +kernel, ?_, htext, fun h => h.2 formula htext⟩
  rw [hcells, Cells.exists_computedAt_recompute_iff]
  exact .number (by decide +kernel) hform hinfinite

end Sheet

end Spreadsheet
