import Spreadsheet.Proofs.Evaluate.Probe
import Spreadsheet.Proofs.Recompute.Input

/-!
# The Order of the Cells

Whether the values of a sheet depend on the order in which its cells were entered.

Formulas that wait for nothing are evaluated in the order of the cells. If all
formulas are covered this cannot be seen in the values: the input is the same, and
the values depend on nothing else. If a formula looks at a cell that the graph
does not know it to read, it may be evaluated before or after that cell, and then
it sees an old value or a new one.

So a formula is harmless in all sheets exactly if it is covered. The sheet that
shows this for a formula that is not has two cells. One holds the formula, under
a name that no formula can use. The other is the cell that the formula looks at
behind the back of the graph: it shows a probe, and ceases to do so once it is
evaluated. Neither has a reader, so they are evaluated in the order in which they
stand.

## Main definitions

* `Sheet.IsOrderFree`: The order of the cells does not matter for the values.
* `Sheet.CoveredBut`: All formulas but one are covered.

## Theorems

* `DependencyGraph.order_of_no_reader`: Without edges the order is that of the
  cells.
* `Sheet.isOrderFree_of_covered`: In sheets of covered formulas the order does not
  matter.
* `Formula.isOrderFree_iff_isCovered`: And for all other formulas there is a sheet where it
  does.
-/

namespace Spreadsheet

namespace DependencyGraph

variable {graph : DependencyGraph}

theorem settle_of_no_reader {queue : List String} {waiting : List (String × Nat)} {steps : Nat}
    (h : ∀ id ∈ queue, ∀ reader, graph.isReader reader id = false) :
    graph.settle steps waiting queue = queue.take steps := by
  induction steps generalizing queue waiting with
  | zero => rw [settle, List.take_zero]
  | succ steps ih =>
      cases queue with
      | nil => rfl
      | cons id queue =>
          have hfreed : graph.freed id waiting = [] := by
            rw [freed, List.map_eq_nil_iff, List.filter_eq_nil_iff]
            rintro ⟨reader, n⟩ _
            simp only [h id List.mem_cons_self reader, Bool.false_and]
            exact Bool.false_ne_true
          rw [settle, hfreed, List.append_nil, List.take_succ_cons,
            ih fun id' hid' => h id' (List.mem_cons_of_mem _ hid')]

/-- Where no formula cell has a reader, the order is that of the cells. -/
theorem order_of_no_reader
    (h : ∀ id ∈ graph.formulas.keys, ∀ reader, graph.isReader reader id = false) :
    graph.order = graph.formulas.keys := by
  -- No formula waits for another, so all are ready at the start, in their places.
  have hwaiting : ∀ reader, graph.waitingFor reader = 0 := by
    intro reader
    rw [waitingFor, List.length_eq_zero_iff, List.filter_eq_nil_iff]
    intro id hid
    rw [h id hid]
    exact Bool.false_ne_true
  have hqueue : ((graph.formulas.keys.map fun reader => (reader, graph.waitingFor reader)).filter
      fun entry => entry.2 == 0).map Prod.fst = graph.formulas.keys := by
    rw [List.filter_eq_self.mpr, List.map_map]
    · exact List.map_id _
    · intro entry hentry
      rcases List.mem_map.mp hentry with ⟨reader, _, rfl⟩
      rw [beq_iff_eq]
      exact hwaiting reader
  rw [order]
  simp only [hqueue]
  rw [settle_of_no_reader h, OrderedMap.size, List.take_of_length_le]
  rw [OrderedMap.keys, List.length_map]

end DependencyGraph

namespace Mention

theorem ne_empty_of_isName {name : String} (h : IsName name.toList) : name ≠ "" := by
  intro hname
  rw [hname] at h
  exact h.ne_nil rfl

end Mention

/-- No expression consults a cell without a name. -/
theorem Consults.ne_empty {cs : List Char} {id : String} (h : Consults cs id) : id ≠ "" := by
  induction h with
  | cell hform =>
      have hm := (Form.eq_of_cell hform).2
      exact Mention.ne_empty_of_isName (Mention.isName_of_atStart? hm rfl)
  | piece hform hmem =>
      rw [(Form.eq_of_arithmetic hform).2] at hmem
      exact Mention.ne_empty_of_isName (Piece.isName_of_mem_scan hmem)
  -- The names in a block are canonical, and the empty one is not.
  | block _ _ hrange hid =>
      intro hempty
      rw [hempty] at hid
      have hcanonical := ((Block.mem_ids (Form.onGrid_of_range hrange)).mp hid).1
      exact absurd hcanonical (by decide)
  | part _ _ ih => exact ih

namespace Formula

/-- No formula reads a cell without a name. -/
theorem not_reads_empty (formula : String) : ¬ Reads formula "" := by
  rintro (hmem | ⟨a, ha, _⟩)
  · rcases List.mem_filterMap.mp (List.mem_eraseDups.mp hmem) with ⟨m, hm, hname⟩
    cases m with
    | cell name =>
        have hshape : Mention.IsName name := Mention.isName_of_mem_scan hm rfl
        rw [Mention.cellName?, Option.some.injEq] at hname
        refine Mention.ne_empty_of_isName ?_ hname
        rw [String.toList_ofList]
        exact hshape
    | range first last => cases hname
  · rw [show Address.ofId? "" = none by decide] at ha
    cases ha

theorem not_reads_equals (id : String) : ¬ Reads "=" id := by
  rintro (hmem | ⟨_, _, _, hmem, _⟩)
  · rw [show references "=" = [] by decide] at hmem
    cases hmem
  · rw [show ranges "=" = [] by decide] at hmem
    cases hmem

theorem isCovered_equals : IsCovered "=" := by
  intro cs hcs id hid
  rw [← (List.cons.inj hcs).2] at hid
  have hform : Form.ofTrimmed (Text.trim []) = .blank := by decide
  cases hid with
  | cell h => rw [hform] at h; cases h
  | piece h _ => rw [hform] at h; cases h
  | block h _ _ _ => rw [hform] at h; cases h
  | part h _ => rw [hform] at h; cases h

end Formula

namespace Sheet

/-- The order of the cells of a sheet does not matter for their computed values. -/
def IsOrderFree (functions : Registry) (sheet : Sheet) : Prop :=
  ∀ sheet' : Sheet, sheet'.cells.entries.Perm sheet.cells.entries → ∀ id,
    (sheet'.recompute functions).cells.computedAt id
      = (sheet.recompute functions).cells.computedAt id

/-- All formulas of a sheet are covered, but for one that may not be. -/
def CoveredBut (formula : String) (sheet : Sheet) : Prop :=
  ∀ id c formula', sheet.cells.get? id = some c → c.formula? = some formula' →
    formula' = formula ∨ Formula.IsCovered formula'

/-- In a sheet of covered formulas the order of the cells does not matter. -/
theorem isOrderFree_of_covered (functions : Registry) {sheet : Sheet}
    (hcovered : sheet.cells.Covered) : sheet.IsOrderFree functions := by
  intro sheet' hperm id
  have hinput := Cells.sameInput_of_perm hperm
  exact hinput.computedAt_eq functions (hinput.symm.covered hcovered) id

end Sheet

namespace Cells

/-- Two cells. -/
def pair (id id' : String) (c c' : Cell) (h : id ≠ id') : Cells where
  entries := [(id, c), (id', c')]
  nodup_keys := by
    rw [List.map_cons, List.map_cons, List.map_nil, List.nodup_cons, List.mem_singleton]
    exact ⟨h, List.nodup_singleton id'⟩

variable {id id' : String} {c c' : Cell} {h : id ≠ id'}

theorem get?_pair_left : (pair id id' c c' h).get? id = some c :=
  (OrderedMap.get?_eq_some_iff _).mpr List.mem_cons_self

theorem get?_pair_right : (pair id id' c c' h).get? id' = some c' :=
  (OrderedMap.get?_eq_some_iff _).mpr (List.mem_cons_of_mem _ List.mem_cons_self)

theorem get?_pair_of_ne {id'' : String} (hne : id'' ≠ id) (hne' : id'' ≠ id') :
    (pair id id' c c' h).get? id'' = none := by
  rw [OrderedMap.get?_eq_none_iff]
  intro hmem
  rcases List.mem_cons.mp hmem with heq | hmem
  · exact hne heq
  · exact hne' (List.mem_singleton.mp hmem)

theorem resolveLiterals_of_isFormula {cells : Cells}
    (h : ∀ e ∈ cells.entries, e.2.isFormula = true) : cells.resolveLiterals = cells := by
  have hentries : cells.resolveLiterals.entries = cells.entries := by
    refine (List.map_congr_left fun e he => ?_).trans (List.map_id cells.entries)
    simp only [h e he, if_true]
    rfl
  rcases cells with ⟨entries, hnodup⟩
  cases hresolve : resolveLiterals ⟨entries, hnodup⟩ with
  | mk entries' hnodup' =>
      rw [hresolve] at hentries
      simp only at hentries
      subst hentries
      rfl

theorem formulas_pair_left :
    (DependencyGraph.ofCells (pair id id' c c' h)).formulas.get? id = c.formula? := by
  rw [DependencyGraph.formulas_ofCells, get?_pair_left]
  rfl

theorem formulas_pair_right :
    (DependencyGraph.ofCells (pair id id' c c' h)).formulas.get? id' = c'.formula? := by
  rw [DependencyGraph.formulas_ofCells, get?_pair_right]
  rfl

section Pair

variable {formula formula' : String} (hformula : c.formula? = some formula)
  (hformula' : c'.formula? = some formula')

include hformula hformula'

theorem resolveLiterals_pair : (pair id id' c c' h).resolveLiterals = pair id id' c c' h := by
  refine resolveLiterals_of_isFormula fun e he => ?_
  simp only [pair, List.mem_cons, List.not_mem_nil, or_false] at he
  rcases he with rfl | rfl
  · rw [Cell.isFormula, hformula]
    rfl
  · rw [Cell.isFormula, hformula']
    rfl

theorem keys_formulas_pair :
    (DependencyGraph.ofCells (pair id id' c c' h)).formulas.keys = [id, id'] := by
  rw [OrderedMap.keys, (DependencyGraph.ofFormulas_formulasOf _).2]
  simp only [DependencyGraph.formulasOf, pair, List.filterMap_cons, hformula, hformula',
    Option.map_some, List.filterMap_nil, List.map_cons, List.map_nil]

variable (hreads : ¬ Formula.Reads formula id ∧ ¬ Formula.Reads formula id')
  (hreads' : ¬ Formula.Reads formula' id ∧ ¬ Formula.Reads formula' id')

include hreads hreads'

/-- If none of the two formulas reads one of the two cells, the graph has no edge. -/
theorem isReader_pair {x : String}
    (hx : x ∈ (DependencyGraph.ofCells (pair id id' c c' h)).formulas.keys) (reader : String) :
    (DependencyGraph.ofCells (pair id id' c c' h)).isReader reader x = false := by
  rw [← Bool.not_eq_true, (DependencyGraph.isExact_ofCells _).isReader_iff]
  rintro ⟨g, hg, hgreads⟩
  have hmem := (OrderedMap.mem_keys_iff _).mpr ⟨g, hg⟩
  rw [keys_formulas_pair hformula hformula', List.mem_pair] at hx hmem
  -- A reader would be one of the two formulas.
  rcases hmem with rfl | rfl
  · rw [formulas_pair_left, hformula, Option.some.injEq] at hg
    rw [← hg] at hgreads
    rcases hx with rfl | rfl
    · exact hreads.1 hgreads
    · exact hreads.2 hgreads
  · rw [formulas_pair_right, hformula', Option.some.injEq] at hg
    rw [← hg] at hgreads
    rcases hx with rfl | rfl
    · exact hreads'.1 hgreads
    · exact hreads'.2 hgreads

/-- Two formula cells that do not read each other or themselves are evaluated in the
    order in which they stand. -/
theorem recompute_pair (functions : Registry) :
    let cells := pair id id' c c' h
    let first := cells.setComputed id (Scope.evaluate ⟨cells, functions⟩ formula)
    cells.recompute functions
      = first.setComputed id' (Scope.evaluate ⟨first, functions⟩ formula') := by
  intro cells first
  have hkeys : (DependencyGraph.ofCells cells).formulas.keys = [id, id'] :=
    keys_formulas_pair hformula hformula'
  -- Without edges, the order of evaluation is that of the cells, and nothing is on a cycle.
  have horder : (DependencyGraph.ofCells cells).order = [id, id'] := by
    rw [DependencyGraph.order_of_no_reader fun x hx reader =>
      isReader_pair hformula hformula' hreads hreads' hx reader, hkeys]
  have hblocked : (DependencyGraph.ofCells cells).blocked = [] := by
    rw [List.eq_nil_iff_forall_not_mem]
    intro x hx
    rcases DependencyGraph.mem_blocked.mp hx with ⟨hkey, hnot⟩
    rw [horder, ← hkeys] at hnot
    exact hnot hkey
  have hresolve : cells.resolveLiterals = cells := resolveLiterals_pair hformula hformula'
  rw [recompute, calculate, hresolve, horder, hblocked]
  simp only [List.foldl_cons, List.foldl_nil]
  rw [evaluateAt_of_get? (formulas_pair_left.trans hformula),
    evaluateAt_of_get? (formulas_pair_right.trans hformula')]

end Pair

end Cells

namespace Formula

/-- The cell of a formula that has not been evaluated. -/
def pending (formula : String) : Cell := { formula := some formula }

/-- A cell that shows the probe from before, and another value once its formula is
    evaluated. -/
def stale : Cell := { formula := some "=", computed := some .probe }

theorem formula?_pending {formula : String} {cs : List Char} (h : formula.toList = '=' :: cs) :
    (pending formula).formula? = some formula := by
  have hne : formula.isEmpty = false := by
    rw [← Bool.not_eq_true, String.isEmpty_iff]
    intro hempty
    rw [hempty] at h
    cases h
  rw [Cell.formula?, pending, Option.filter_some, hne]
  rfl

theorem evaluate_equals (scope : Scope) : scope.evaluate "=" = .text "" := by
  have hvalue : scope.value? Scope.depthLimit [] = some (.text "") :=
    (Scope.Yields.text (by decide)).value?_eq
  have htext : "=".toList = ['='] := by decide
  rw [Scope.evaluate_eq_expression htext, Scope.expression, hvalue]

theorem currentValue_pending {formula : String} {cs : List Char}
    (h : formula.toList = '=' :: cs) : (pending formula).currentValue = .text "" := by
  have hformula : (pending formula).isFormula = true := by
    rw [Cell.isFormula, formula?_pending h]
    rfl
  have hcomputed : (pending formula).computed = none := rfl
  rw [Cell.currentValue, hcomputed]
  simp only [hformula, if_true]

/-- What holds of the values of two cells and of the empty text holds of all values,
    where there are no other cells. -/
theorem forall_valueAt {P : Value → Prop} {cells : Cells} {x y : String}
    (hx : P (cells.valueAt x)) (hy : P (cells.valueAt y))
    (hnone : ∀ id, id ≠ x → id ≠ y → cells.get? id = none) (htext : P (.text "")) :
    ∀ id, P (cells.valueAt id) := by
  intro id
  by_cases hidx : id = x
  · rw [hidx]
    exact hx
  · by_cases hidy : id = y
    · rw [hidy]
      exact hy
    · rw [Cells.valueAt, hnone id hidx hidy]
      exact htext

section Stale

variable {formula : String} {cs : List Char} {id : String}

/-- In front of the stale cell, the formula comes to the probe. -/
theorem computedAt_left (hcs : formula.toList = '=' :: cs)
    (hnested : nestedWithin Scope.depthLimit cs = true) (hid : Consults cs id)
    (hreads : ¬ Reads formula id) (hne : "" ≠ id) :
    ((Cells.pair "" id (pending formula) stale hne).recompute
      (.telling (callNames Scope.depthLimit cs))).computedAt "" = some .probe := by
  have hprobe : (Cells.pair "" id (pending formula) stale hne).valueAt id = .probe := by
    rw [Cells.valueAt, Cells.get?_pair_right]
    rfl
  have hempty : (Cells.pair "" id (pending formula) stale hne).valueAt "" = .text "" := by
    rw [Cells.valueAt, Cells.get?_pair_left, Option.map_some, currentValue_pending hcs,
      Option.getD_some]
  -- The stale cell shows the probe, and all other cells show the empty text.
  have hprobing : (Cells.pair "" id (pending formula) stale hne).Probing := by
    refine forall_valueAt (P := fun v => v.IsPlain ∧ (v.isError = true → v = .probe)) (x := "")
      (y := id) ?_ ?_ (fun x => Cells.get?_pair_of_ne) ?_
    · rw [hempty]
      exact ⟨fun r h => (by cases h), fun h => by cases h⟩
    · rw [hprobe]
      exact ⟨fun r h => (by cases h), fun _ => rfl⟩
    · exact ⟨fun r h => (by cases h), fun h => by cases h⟩
  have hvalue : Scope.evaluate ⟨Cells.pair "" id (pending formula) stale hne,
      .telling (callNames Scope.depthLimit cs)⟩ formula = .probe := by
    rw [Scope.evaluate_eq_expression hcs, Scope.expression, Scope.value?_eq_probe hprobing hid hprobe hnested
      fun name hname => Registry.get?_telling hname]
    rfl
  rw [Cells.recompute_pair (formula?_pending hcs) (by decide)
    ⟨not_reads_empty formula, hreads⟩ ⟨not_reads_equals _, not_reads_equals _⟩,
    Cells.computedAt_setComputed_of_ne _ _ hne,
    Cells.computedAt_setComputed_self _ Cells.get?_pair_left, hvalue]

/-- Behind the stale cell, it does not. -/
theorem computedAt_right (hcs : formula.toList = '=' :: cs) (hreads : ¬ Reads formula id)
    (names : List String) (hne : id ≠ "") :
    ((Cells.pair id "" stale (pending formula) hne).recompute (.telling names)).computedAt ""
      ≠ some .probe := by
  -- Once the stale cell is evaluated, no cell shows the probe any more.
  let first := (Cells.pair id "" stale (pending formula) hne).setComputed id (.text "")
  have hid : first.valueAt id = .text "" :=
    Cells.valueAt_of_computedAt (Cells.computedAt_setComputed_self _ Cells.get?_pair_left)
  have hget : first.get? "" = some (pending formula) := by
    rw [Cells.get?_setComputed_of_ne _ _ hne.symm, Cells.get?_pair_right]
  have hempty : first.valueAt "" = .text "" := by
    rw [Cells.valueAt, hget, Option.map_some, currentValue_pending hcs, Option.getD_some]
  have hvalues : ∀ x, first.valueAt x = .text "" := by
    refine forall_valueAt (P := fun v => v = .text "") hid hempty (fun x hx hx' => ?_) rfl
    rw [Cells.get?_setComputed_of_ne _ _ hx]
    exact Cells.get?_pair_of_ne hx hx'
  rw [Cells.recompute_pair (by decide) (formula?_pending hcs)
    ⟨not_reads_equals _, not_reads_equals _⟩ ⟨hreads, not_reads_empty formula⟩,
    evaluate_equals, Cells.computedAt_setComputed_self _ hget, ne_eq, Option.some.injEq]
  refine Scope.evaluate_ne_probe (Registry.keepsErrors_telling names) (fun x r h => ?_)
    (fun x h => ?_) formula
  · rw [hvalues x] at h
    cases h
  · rw [hvalues x] at h
    cases h

/-- A formula that looks at a cell that it does not read can come before it or
    behind it, with different values. -/
theorem exists_not_isOrderFree (hcs : formula.toList = '=' :: cs)
    (hnested : nestedWithin Scope.depthLimit cs = true) (hid : Consults cs id)
    (hreads : ¬ Reads formula id) :
    ∃ functions, ∃ sheet : Sheet, sheet.CoveredBut formula ∧ ¬ sheet.IsOrderFree functions := by
  have hne : id ≠ "" := hid.ne_empty
  refine ⟨.telling (callNames Scope.depthLimit cs),
    { cells := Cells.pair "" id (pending formula) stale hne.symm }, ?_, fun hfree => ?_⟩
  · intro x c formula' hget hformula'
    rcases List.mem_cons.mp ((OrderedMap.get?_eq_some_iff _).mp hget) with heq | hmem
    · rw [(Prod.mk.inj heq).2, formula?_pending hcs, Option.some.injEq] at hformula'
      exact Or.inl hformula'.symm
    · rw [(Prod.mk.inj (List.mem_singleton.mp hmem)).2] at hformula'
      rw [← Option.some.inj (show some "=" = some formula' from hformula')]
      exact Or.inr isCovered_equals
  · -- The two orders of the two cells give the formula two values.
    have hsame := hfree { cells := Cells.pair id "" stale (pending formula) hne }
      (List.Perm.swap _ _ _) ""
    exact computedAt_right hcs hreads _ hne
      (hsame.trans (computedAt_left hcs hnested hid hreads hne.symm))

end Stale

/-- Whether the values depend on the order of the cells: they do not in sheets of
    covered formulas, and a formula that is nested no deeper than evaluation goes is
    harmless in all sheets, among covered ones, exactly if it is covered itself. -/
theorem isOrderFree_iff_isCovered (formula : String) (cs : List Char) :
    (∀ functions (sheet : Sheet), sheet.cells.Covered → sheet.IsOrderFree functions) ∧
    (formula.toList = '=' :: cs → nestedWithin Scope.depthLimit cs = true →
      (IsCovered formula ↔
        ∀ functions sheet, Sheet.CoveredBut formula sheet → sheet.IsOrderFree functions)) := by
  refine ⟨fun functions sheet h => Sheet.isOrderFree_of_covered functions h,
    fun hcs hnested => ⟨fun hcovered functions sheet hbut => ?_, fun hfree => ?_⟩⟩
  · refine Sheet.isOrderFree_of_covered functions fun id c formula' hget hformula' => ?_
    rcases hbut id c formula' hget hformula' with rfl | hcovered'
    · exact hcovered
    · exact hcovered'
  · intro cs' hcs' id hid
    rw [hcs] at hcs'
    rw [← (List.cons.inj hcs').2] at hid
    by_contra hreads
    rcases exists_not_isOrderFree hcs hnested hid hreads with ⟨functions, sheet, hbut, hnot⟩
    exact hnot (hfree functions sheet hbut)

/-- A sum in a sheet of two cells. -/
theorem isOrderFree_sum :
    Sheet.IsOrderFree .builtins
        { cells := Cells.pair "A1" "B1" (pending "=B1+1") (pending "=2") (by decide) } ∧
      (IsCovered "=B1+1" ↔
        ∀ functions sheet, Sheet.CoveredBut "=B1+1" sheet → sheet.IsOrderFree functions) := by
  have h := isOrderFree_iff_isCovered "=B1+1" "B1+1".toList
  exact ⟨h.1 _ _ (Sheet.IsRegular.covered (by decide +kernel)),
    h.2 (by decide) (by decide +kernel)⟩

/-- Taking out the literal in `=0+Z"x"B1` leaves the name of another cell, so the
    formula looks at `B1` and is not known to read it. -/
theorem not_isOrderFree_split_name :
    ¬ ∀ sheet : Sheet, sheet.IsOrderFree .builtins := by
  intro hfree
  have hsame := hfree
    { cells := Cells.pair "B1" "A1" (pending "=1") (pending "=0+Z\"x\"B1") (by decide) }
    { cells := Cells.pair "A1" "B1" (pending "=0+Z\"x\"B1") (pending "=1") (by decide) }
    (List.Perm.swap _ _ _) "A1"
  -- Behind `B1` the value is one, and in front of it nothing follows the plus sign.
  exact absurd hsame (by decide +kernel)

end Formula

end Spreadsheet
