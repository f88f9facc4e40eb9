import Spreadsheet.Proofs.Dependency.Edges
import Spreadsheet.Proofs.Dependency.Order
import Spreadsheet.Recompute

/-!
# The Recomputation Pass

What is known of the cells while the formulas are evaluated one after the other.

The pass overwrites the cells it works on, so every value was found while others
were still missing or stale. The invariant is that this did no harm
(`Progress`): each formula that was evaluated has the value that it would have
if it were evaluated now. It is kept because nothing that a finished formula
reads is ever written again. What it reads and holds a formula stands before it
in the order, and the formulas that are blocked are read by none of the others.

This takes formulas that are covered: one that looks at a cell of which the graph
knows nothing could have seen it too early.

## Main definitions

* `Cells.computedAt`: The computed value of a cell.
* `Cells.recompute`: The cells after a recomputation.
* `Cells.Covered`: All formulas among some cells are covered.
* `Cells.UpToDate`: A formula cell has the value of its formula.
* `Cells.Progress`: The invariant of the pass.
* `Sheet.IsRegular`: All formulas of a sheet are regular.

## Theorems

* `foldl_done`: What each formula keeps is kept by all of them.
* `recompute_induction`: Induction over the pass.
* `Progress.setComputed`: What finished formulas do not read may be written.
* `Progress.evaluateAt`: The next formula in the order is evaluated.
* `progress_recompute`: After the pass, all formulas in the order are up to date.
* `order_value_induction`: Induction on the values, along the order.
* `computedAt_of_blocked`: The other formulas show a cycle.
* `computedAt_recompute`: After the pass every cell shows its computed value.
-/

namespace Spreadsheet

namespace Cell

/-- What was entered in a cell, without the value found for it. -/
def entry (c : Cell) : Cell := { c with computed := none }

end Cell

namespace Cells

/-- The computed value of a cell. -/
def computedAt (cells : Cells) (id : String) : Option Value := (cells.get? id).bind Cell.computed

theorem valueAt_of_computedAt {cells : Cells} {id : String} {v : Value}
    (h : cells.computedAt id = some v) : cells.valueAt id = v := by
  rcases Option.bind_eq_some_iff.mp h with ⟨c, hc, hcomputed⟩
  rw [valueAt, hc, Option.map_some, Option.getD_some, Cell.currentValue, hcomputed]

theorem get?_setComputed_self (cells : Cells) (id : String) (v : Value) :
    (cells.setComputed id v).get? id
      = (cells.get? id).map fun c => { c with computed := some v } := by
  rw [setComputed]
  cases hget : cells.get? id with
  | none => exact hget
  | some c => exact OrderedMap.get?_insert_self _ _ _

theorem get?_setComputed_of_ne (cells : Cells) {id id' : String} (v : Value) (h : id' ≠ id) :
    (cells.setComputed id v).get? id' = cells.get? id' := by
  rw [setComputed]
  cases hget : cells.get? id with
  | none => rfl
  | some c => exact OrderedMap.get?_insert_of_ne _ _ h

theorem entry_setComputed (cells : Cells) (id id' : String) (v : Value) :
    ((cells.setComputed id v).get? id').map Cell.entry = (cells.get? id').map Cell.entry := by
  by_cases h : id' = id
  · rw [h, get?_setComputed_self, Option.map_map]
    rfl
  · rw [get?_setComputed_of_ne cells v h]

theorem computedAt_setComputed_self {cells : Cells} {id : String} {c : Cell} (v : Value)
    (h : cells.get? id = some c) : (cells.setComputed id v).computedAt id = some v := by
  rw [computedAt, get?_setComputed_self, h]
  rfl

theorem computedAt_setComputed_of_ne (cells : Cells) {id id' : String} (v : Value)
    (h : id' ≠ id) : (cells.setComputed id v).computedAt id' = cells.computedAt id' := by
  rw [computedAt, computedAt, get?_setComputed_of_ne cells v h]

/-- What is known of the values of some cells is known of one more, once it was written to. -/
theorem computedAt_setComputed_append {P : String → Option Value → Prop} {cells : Cells}
    {done : List String} (hdone : ∀ id ∈ done, P id (cells.computedAt id)) {id : String}
    {c : Cell} (hget : cells.get? id = some c) {v : Value} (hv : P id (some v)) :
    ∀ id' ∈ done ++ [id], P id' ((cells.setComputed id v).computedAt id') := by
  intro id' hid'
  by_cases hid : id' = id
  · rw [hid, computedAt_setComputed_self v hget]
    exact hv
  · rw [computedAt_setComputed_of_ne cells v hid]
    rcases List.mem_append.mp hid' with hid' | hid'
    · exact hdone id' hid'
    · exact absurd (List.mem_singleton.mp hid') hid

/-- The cells after a recomputation of the sheet that they are of. -/
def recompute (functions : Registry) (cells : Cells) : Cells :=
  cells.resolveLiterals.calculate functions (DependencyGraph.ofCells cells)

/-- All formulas among some cells look only at cells that they read. -/
def Covered (cells : Cells) : Prop :=
  ∀ id c formula, cells.get? id = some c → c.formula? = some formula → Formula.IsCovered formula

/-- A formula cell has the value that its formula has with the cells as they are. -/
def UpToDate (functions : Registry) (cells : Cells) (id formula : String) : Prop :=
  cells.computedAt id = some (Scope.evaluate ⟨cells, functions⟩ formula)

/-- What is known after the formulas of some cells were evaluated, `done` in this
    order, and with the cells as they are in `current`. -/
structure Progress (functions : Registry) (cells : Cells) (done : List String)
    (current : Cells) : Prop where
  /-- What was entered is still there. -/
  entry : ∀ id, (current.get? id).map Cell.entry = (cells.get? id).map Cell.entry
  /-- Literals have their values. -/
  literal : ∀ id c, current.get? id = some c → c.isFormula = false →
    c.computed = some (.ofLiteral c.value)
  /-- Formulas that were evaluated have their values. -/
  upToDate : ∀ id ∈ done, ∀ formula,
    (DependencyGraph.ofCells cells).formulas.get? id = some formula →
      UpToDate functions current id formula

variable {functions : Registry} {cells current : Cells} {done : List String}

/-- Evaluating a formula cell writes the value of its formula. -/
theorem evaluateAt_of_get? {id formula : String}
    (h : (DependencyGraph.ofCells cells).formulas.get? id = some formula) :
    current.evaluateAt functions (DependencyGraph.ofCells cells) id
      = current.setComputed id (Scope.evaluate ⟨current, functions⟩ formula) := by
  rw [evaluateAt, h]

/-- What stands in the order is a formula cell. -/
theorem exists_formula_of_order {rest : List String} {id : String}
    (horder : (DependencyGraph.ofCells cells).order = done ++ id :: rest) :
    ∃ formula, (DependencyGraph.ofCells cells).formulas.get? id = some formula := by
  have hmem : id ∈ (DependencyGraph.ofCells cells).order := by
    rw [horder]
    exact List.mem_append_right _ List.mem_cons_self
  exact (OrderedMap.mem_keys_iff _).mp (DependencyGraph.mem_order_iff.mp hmem).1

/-- A formula cell stands in the order or is blocked. -/
theorem mem_order_append_blocked {id : String}
    (hkey : id ∈ (DependencyGraph.ofCells cells).formulas.keys) :
    id ∈ (DependencyGraph.ofCells cells).order ++ (DependencyGraph.ofCells cells).blocked := by
  by_cases horder : id ∈ (DependencyGraph.ofCells cells).order
  · exact List.mem_append_left _ horder
  · exact List.mem_append_right _ (DependencyGraph.mem_blocked.mpr ⟨hkey, horder⟩)

/-- What is known of the cells after those in `done` is known after some more, if each of
    these keeps it. -/
theorem foldl_done {P : List String → Cells → Prop} {step : Cells → String → Cells}
    {ids : List String} (h : P done current)
    (hstep : ∀ {front id rest current}, ids = front ++ id :: rest →
      P (done ++ front) current → P (done ++ front ++ [id]) (step current id)) :
    P (done ++ ids) (ids.foldl step current) := by
  -- The cells that are left get fewer, and those that are done move along.
  induction ids generalizing done current with
  | nil =>
      rw [List.append_nil]
      exact h
  | cons id ids ih =>
      have hfirst := hstep (List.nil_append (id :: ids)).symm (by rwa [List.append_nil])
      rw [List.append_nil] at hfirst
      rw [List.foldl_cons, List.append_cons]
      refine ih hfirst fun {front id' rest current} heq hfront => ?_
      rw [← List.append_cons] at hfront ⊢
      exact hstep (by rw [heq, List.cons_append]) hfront

/-- Induction over the pass. What holds before it, and is kept where the next formula in
    the order gets its value and where a blocked one gets the error of a cycle, holds after
    it, with every formula cell done. -/
theorem recompute_induction {P : List String → Cells → Prop} (hstart : P [] cells.resolveLiterals)
    (hvalue : ∀ {done id rest current formula},
      (DependencyGraph.ofCells cells).order = done ++ id :: rest →
      (DependencyGraph.ofCells cells).formulas.get? id = some formula → P done current →
        P (done ++ [id]) (current.setComputed id (Scope.evaluate ⟨current, functions⟩ formula)))
    (hcycle : ∀ {done id current}, id ∈ (DependencyGraph.ofCells cells).blocked → P done current →
      P (done ++ [id]) (current.setComputed id .cycle)) :
    P ((DependencyGraph.ofCells cells).order ++ (DependencyGraph.ofCells cells).blocked)
      (cells.recompute functions) := by
  -- First the formulas in the order, then the blocked ones.
  have horder : P ([] ++ (DependencyGraph.ofCells cells).order)
      ((DependencyGraph.ofCells cells).order.foldl
        (evaluateAt functions (DependencyGraph.ofCells cells)) cells.resolveLiterals) :=
    foldl_done hstart fun hids h => by
      rcases exists_formula_of_order hids with ⟨formula, hformula⟩
      rw [evaluateAt_of_get? hformula]
      exact hvalue hids hformula h
  exact foldl_done horder fun hids h =>
    hcycle (by rw [hids]; exact List.mem_append_right _ List.mem_cons_self) h

theorem formula?_of_entry (h : ∀ id, (current.get? id).map Cell.entry
    = (cells.get? id).map Cell.entry) (id : String) :
    (current.get? id).bind Cell.formula? = (cells.get? id).bind Cell.formula? := by
  have hentry := congrArg (fun c => c.bind Cell.formula?) (h id)
  simp only [Option.bind_map] at hentry
  exact hentry

/-- What is a formula cell at the start is one all the time. -/
theorem exists_of_mem_keys
    (hentry : ∀ id, (current.get? id).map Cell.entry = (cells.get? id).map Cell.entry)
    {id : String} (hkey : id ∈ (DependencyGraph.ofCells cells).formulas.keys) :
    ∃ c formula, current.get? id = some c ∧ c.formula? = some formula := by
  rcases (OrderedMap.mem_keys_iff _).mp hkey with ⟨formula, hformula⟩
  rw [DependencyGraph.formulas_ofCells, ← formula?_of_entry hentry] at hformula
  rcases Option.bind_eq_some_iff.mp hformula with ⟨c, hc, hformula⟩
  exact ⟨c, formula, hc, hformula⟩

/-- What is no formula cell at the start is a literal all the time. -/
theorem isFormula_eq_false
    (hentry : ∀ id, (current.get? id).map Cell.entry = (cells.get? id).map Cell.entry)
    {id : String} (hkey : id ∉ (DependencyGraph.ofCells cells).formulas.keys) {c : Cell}
    (hget : current.get? id = some c) : c.isFormula = false := by
  rw [← OrderedMap.get?_eq_none_iff, DependencyGraph.formulas_ofCells, ← formula?_of_entry hentry,
    hget, Option.bind_some] at hkey
  rw [Cell.isFormula, hkey]
  rfl

/-- Writing to a formula cell leaves the literals their values. -/
theorem literal_setComputed
    (hentry : ∀ id, (current.get? id).map Cell.entry = (cells.get? id).map Cell.entry)
    (hliteral : ∀ id c, current.get? id = some c → c.isFormula = false →
      c.computed = some (.ofLiteral c.value))
    {id : String} (hkey : id ∈ (DependencyGraph.ofCells cells).formulas.keys) (v : Value)
    (id' : String) (c : Cell) (hget : (current.setComputed id v).get? id' = some c)
    (hc : c.isFormula = false) : c.computed = some (.ofLiteral c.value) := by
  -- The cell that is written to is a formula, so it is another one.
  have hne : id' ≠ id := by
    intro heq
    rw [heq] at hget
    rcases exists_of_mem_keys hentry hkey with ⟨c', formula, hc', hformula'⟩
    rw [get?_setComputed_self, hc'] at hget
    rw [← Option.some.inj hget, Cell.isFormula] at hc
    have hsome : Option.isSome (Cell.formula? { c' with computed := some v }) = true := by
      show c'.formula?.isSome = true
      rw [hformula']
      rfl
    rw [hsome] at hc
    cases hc
  rw [get?_setComputed_of_ne current v hne] at hget
  exact hliteral id' c hget hc

theorem isCovered_of_get? (hcovered : cells.Covered) {id formula : String}
    (h : (DependencyGraph.ofCells cells).formulas.get? id = some formula) :
    Formula.IsCovered formula := by
  rw [DependencyGraph.formulas_ofCells] at h
  rcases Option.bind_eq_some_iff.mp h with ⟨c, hc, hformula⟩
  exact hcovered id c formula hc hformula

/-- What a formula cell reads, if it is a formula cell, it has an edge to. -/
theorem edge_of_reads {id id' formula : String}
    (h : (DependencyGraph.ofCells cells).formulas.get? id = some formula)
    (hreads : Formula.Reads formula id')
    (hkey : id' ∈ (DependencyGraph.ofCells cells).formulas.keys) :
    (DependencyGraph.ofCells cells).Edge id id' :=
  ⟨(OrderedMap.mem_keys_iff _).mpr ⟨formula, h⟩, hkey,
    (DependencyGraph.isExact_ofCells cells).isReader_iff.mpr ⟨formula, h, hreads⟩⟩

/-- At the start the literals have their values. -/
theorem progress_resolveLiterals (functions : Registry) (cells : Cells) :
    Progress functions cells [] cells.resolveLiterals where
  entry := fun id => by
    rw [resolveLiterals, OrderedMap.get?_mapValues, Option.map_map]
    congr 1
    funext c
    rw [Function.comp_apply]
    split <;> rfl
  literal := fun id c hget hliteral => by
    rw [resolveLiterals, OrderedMap.get?_mapValues] at hget
    rcases Option.map_eq_some_iff.mp hget with ⟨c', _, rfl⟩
    by_cases hformula : c'.isFormula = true
    · rw [if_pos hformula, hformula] at hliteral
      cases hliteral
    · rw [if_neg hformula]
  upToDate := fun id hid => by cases hid

namespace Progress

/-- What is no formula cell shows its literal. -/
theorem get?_of_not_mem (h : Progress functions cells done current) {id : String}
    (hid : id ∉ (DependencyGraph.ofCells cells).formulas.keys) :
    (current.get? id).map Cell.currentValue = (cells.get? id).map fun c => .ofLiteral c.value := by
  have hentry := h.entry id
  cases hget : current.get? id with
  | none =>
      rw [hget] at hentry
      rw [Option.map_none, (Option.map_eq_none_iff).mp hentry.symm]
      rfl
  | some c =>
      have hcomputed := h.literal id c hget (isFormula_eq_false h.entry hid hget)
      rw [hget] at hentry
      rcases Option.map_eq_some_iff.mp hentry.symm with ⟨c', hc', heq⟩
      have hvalue := congrArg Cell.value heq
      change c'.value = c.value at hvalue
      rw [hc', Option.map_some, Option.map_some, Cell.currentValue, hcomputed, hvalue]

theorem valueAt_of_not_mem (h : Progress functions cells done current) {id : String}
    (hid : id ∉ (DependencyGraph.ofCells cells).formulas.keys) :
    ∃ s, current.valueAt id = .ofLiteral s := by
  rw [valueAt, h.get?_of_not_mem hid]
  cases cells.get? id with
  | none => exact ⟨"", rfl⟩
  | some c => exact ⟨c.value, rfl⟩

/-- No cell shows a range, if it is no formula that is still to be evaluated. -/
theorem isPlain (h : Progress functions cells done current) {id : String}
    (hid : id ∈ (DependencyGraph.ofCells cells).formulas.keys → id ∈ done) :
    (current.valueAt id).IsPlain := by
  by_cases hkey : id ∈ (DependencyGraph.ofCells cells).formulas.keys
  · rcases (OrderedMap.mem_keys_iff _).mp hkey with ⟨formula, hformula⟩
    rw [valueAt_of_computedAt (h.upToDate id (hid hkey) formula hformula)]
    exact Scope.evaluate_isPlain _ _
  · rcases h.valueAt_of_not_mem hkey with ⟨s, hs⟩
    rw [hs]
    exact Value.isPlain_ofLiteral s

/-- A cell may be written that no formula reads whose value must stay. -/
theorem evaluate_setComputed (h : Progress functions cells done current) {id formula : String}
    (hcovered : Formula.IsCovered formula)
    (hdone : ∀ id', Formula.Reads formula id' →
      id' ∈ (DependencyGraph.ofCells cells).formulas.keys → id' ∈ done)
    (hid : ¬ Formula.Reads formula id) (v : Value) :
    Scope.evaluate ⟨current, functions⟩ formula
      = Scope.evaluate ⟨current.setComputed id v, functions⟩ formula := by
  refine Scope.evaluate_congr hcovered (fun id' hreads => h.isPlain (hdone id' hreads))
    fun id' hreads => ?_
  have hne : id' ≠ id := fun heq => hid (by rw [← heq]; exact hreads)
  rw [AgreeAt, get?_setComputed_of_ne current v hne]

/-- What finished formulas do not read may be written, if it is a formula cell. -/
theorem setComputed (h : Progress functions cells done current) (hcovered : cells.Covered)
    (hclosed : ∀ id ∈ done, ∀ id', (DependencyGraph.ofCells cells).Edge id id' → id' ∈ done)
    {id : String} (hkey : id ∈ (DependencyGraph.ofCells cells).formulas.keys) (hid : id ∉ done)
    (v : Value) : Progress functions cells done (current.setComputed id v) where
  entry := fun id' => by rw [entry_setComputed, h.entry]
  literal := literal_setComputed h.entry h.literal hkey v
  upToDate := fun id' hid' formula hformula => by
    have hne : id' ≠ id := fun heq => hid (by rw [← heq]; exact hid')
    -- What a finished formula reads is finished, so it is not the cell that is written.
    have hdone : ∀ id'', Formula.Reads formula id'' →
        id'' ∈ (DependencyGraph.ofCells cells).formulas.keys → id'' ∈ done :=
      fun id'' hreads hkey'' => hclosed id' hid' id'' (edge_of_reads hformula hreads hkey'')
    rw [UpToDate, computedAt_setComputed_of_ne current v hne,
      ← h.evaluate_setComputed (isCovered_of_get? hcovered hformula) hdone
        (fun hreads => hid (hdone id hreads hkey)) v]
    exact h.upToDate id' hid' formula hformula

/-- The next formula in the order is evaluated. -/
theorem evaluateAt {rest : List String} {id : String}
    (h : Progress functions cells done current) (hcovered : cells.Covered)
    (horder : (DependencyGraph.ofCells cells).order = done ++ id :: rest) :
    Progress functions cells (done ++ [id])
      (current.evaluateAt functions (DependencyGraph.ofCells cells) id) := by
  rcases exists_formula_of_order horder with ⟨formula, hformula⟩
  have hkey := (OrderedMap.mem_keys_iff _).mpr ⟨formula, hformula⟩
  -- No formula stands twice in the order.
  have hid : id ∉ done := by
    have hnodup := (DependencyGraph.ofCells cells).nodup_order
    rw [horder] at hnodup
    exact fun hm => (List.nodup_append.mp hnodup).2.2 id hm id List.mem_cons_self rfl
  have hclosed : ∀ id' ∈ done, ∀ id'', (DependencyGraph.ofCells cells).Edge id' id'' →
      id'' ∈ done := by
    intro id' hid' id'' hedge
    rcases List.append_of_mem hid' with ⟨front, back, rfl⟩
    rw [List.append_assoc, List.cons_append] at horder
    exact List.mem_append_left _ (DependencyGraph.mem_front_of_order horder hedge)
  rw [evaluateAt_of_get? hformula]
  have hframe := h.setComputed hcovered hclosed hkey hid
    (Scope.evaluate ⟨current, functions⟩ formula)
  refine ⟨hframe.entry, hframe.literal, fun id' hid' formula' hformula' => ?_⟩
  rcases List.mem_append.mp hid' with hid' | hid'
  · exact hframe.upToDate id' hid' formula' hformula'
  · rw [List.mem_singleton.mp hid', hformula, Option.some.injEq] at hformula'
    rw [List.mem_singleton.mp hid', ← hformula']
    -- The formula does not read its own cell, which would have to stand before itself.
    have hdone : ∀ id'', Formula.Reads formula id'' →
        id'' ∈ (DependencyGraph.ofCells cells).formulas.keys → id'' ∈ done :=
      fun id'' hreads hkey'' =>
        DependencyGraph.mem_front_of_order horder (edge_of_reads hformula hreads hkey'')
    have hget := hformula
    rw [DependencyGraph.formulas_ofCells, ← formula?_of_entry h.entry] at hget
    rcases Option.bind_eq_some_iff.mp hget with ⟨c, hc, _⟩
    rw [UpToDate, computedAt_setComputed_self _ hc,
      ← h.evaluate_setComputed (isCovered_of_get? hcovered hformula) hdone
        (fun hreads => hid (hdone id hreads hkey))]

/-- All formulas that are left in the order are evaluated. -/
theorem foldl {rest : List String} (h : Progress functions cells done current)
    (hcovered : cells.Covered) (horder : (DependencyGraph.ofCells cells).order = done ++ rest) :
    Progress functions cells (done ++ rest)
      (rest.foldl (Cells.evaluateAt functions (DependencyGraph.ofCells cells)) current) :=
  foldl_done h fun hrest hfront =>
    hfront.evaluateAt hcovered (by rw [horder, hrest, List.append_assoc])

end Progress

/-- All formulas in the order are evaluated. -/
theorem progress_order (functions : Registry) (hcovered : cells.Covered) :
    Progress functions cells (DependencyGraph.ofCells cells).order
      ((DependencyGraph.ofCells cells).order.foldl
        (evaluateAt functions (DependencyGraph.ofCells cells)) cells.resolveLiterals) :=
  (progress_resolveLiterals functions cells).foldl hcovered
    (List.nil_append (DependencyGraph.ofCells cells).order).symm

/-- Writing the error of a cycle to blocked cells disturbs no other formula. -/
theorem progress_foldl_cycle (hcovered : cells.Covered)
    (h : Progress functions cells (DependencyGraph.ofCells cells).order current)
    {blocked : List String}
    (hblocked : ∀ id ∈ blocked, id ∈ (DependencyGraph.ofCells cells).blocked) :
    Progress functions cells (DependencyGraph.ofCells cells).order
      (blocked.foldl (fun cells id => cells.setComputed id .cycle) current) := by
  induction blocked generalizing current with
  | nil => exact h
  | cons id blocked ih =>
      have hid := DependencyGraph.mem_blocked.mp (hblocked id List.mem_cons_self)
      exact ih (h.setComputed hcovered
        (fun id hid id' hedge => (DependencyGraph.mem_order_iff.mp hid).2 id' hedge) hid.1 hid.2 _)
        fun id' hid' => hblocked id' (List.mem_cons_of_mem _ hid')

/-- After the pass, all formulas in the order are up to date. -/
theorem progress_recompute (functions : Registry) (hcovered : cells.Covered) :
    Progress functions cells (DependencyGraph.ofCells cells).order (cells.recompute functions) :=
  progress_foldl_cycle hcovered (progress_order functions hcovered) fun _ hid => hid

/-- Induction on the values along the order. What holds of the values of literals, and of
    the value of a formula if it holds of all that the formula consults, holds of the value
    of every formula in the order. -/
theorem order_value_induction {P : Value → Prop} (hcovered : cells.Covered)
    (hliteral : ∀ s, P (.ofLiteral s))
    (hvalue : ∀ {id formula}, (DependencyGraph.ofCells cells).formulas.get? id = some formula →
      (∀ cs, formula.toList = '=' :: cs → ∀ id', Consults cs id' →
        ((cells.recompute functions).valueAt id').IsPlain) →
      (∀ cs, formula.toList = '=' :: cs → ∀ id', Consults cs id' →
        P ((cells.recompute functions).valueAt id')) →
      P (Scope.evaluate ⟨cells.recompute functions, functions⟩ formula)) :
    ∀ id ∈ (DependencyGraph.ofCells cells).order, ∀ v,
      (cells.recompute functions).computedAt id = some v → P v := by
  have h := progress_recompute functions hcovered
  refine DependencyGraph.order_induction fun id hid ih v hv => ?_
  rcases (OrderedMap.mem_keys_iff _).mp (DependencyGraph.mem_order_iff.mp hid).1 with
    ⟨formula, hformula⟩
  -- Covered as it is, the formula looks at no cell that it does not read, and a formula
  -- that it reads stands before it.
  have hreads := isCovered_of_get? hcovered hformula
  have hdone : ∀ id', Formula.Reads formula id' →
      id' ∈ (DependencyGraph.ofCells cells).formulas.keys →
        id' ∈ (DependencyGraph.ofCells cells).order := fun id' hreads hkey =>
    (DependencyGraph.mem_order_iff.mp hid).2 id' (edge_of_reads hformula hreads hkey)
  rw [h.upToDate id hid formula hformula, Option.some.injEq] at hv
  rw [← hv]
  refine hvalue hformula (fun cs hcs id' hid' => h.isPlain (hdone id' (hreads cs hcs id' hid')))
    fun cs hcs id' hid' => ?_
  by_cases hkey : id' ∈ (DependencyGraph.ofCells cells).formulas.keys
  · rcases (OrderedMap.mem_keys_iff _).mp hkey with ⟨formula', hformula'⟩
    have hreads := hreads cs hcs id' hid'
    have hcomputed := h.upToDate id' (hdone id' hreads hkey) formula' hformula'
    rw [valueAt_of_computedAt hcomputed]
    exact ih id' (edge_of_reads hformula hreads hkey) _ hcomputed
  · rcases h.valueAt_of_not_mem hkey with ⟨s, hs⟩
    rw [hs]
    exact hliteral s

theorem computedAt_foldl_cycle {blocked : List String} {id : String}
    (hid : (current.get? id).isSome = true) :
    (blocked.foldl (fun cells id => cells.setComputed id .cycle) current).computedAt id
      = if id ∈ blocked then some .cycle else current.computedAt id := by
  induction blocked generalizing current with
  | nil => rfl
  | cons id' blocked ih =>
      -- The cell is still there after the first error is written.
      have hsome : ((current.setComputed id' .cycle).get? id).isSome = true := by
        have := congrArg Option.isSome (entry_setComputed current id' id .cycle)
        rwa [Option.isSome_map, Option.isSome_map, hid] at this
      rw [List.foldl_cons, ih hsome]
      by_cases hmem : id ∈ blocked
      · rw [if_pos hmem, if_pos (List.mem_cons_of_mem _ hmem)]
      · rw [if_neg hmem]
        by_cases heq : id = id'
        · rcases Option.isSome_iff_exists.mp hid with ⟨c, hc⟩
          rw [if_pos (by rw [heq]; exact List.mem_cons_self), ← heq,
            computedAt_setComputed_self _ hc]
        · rw [if_neg, computedAt_setComputed_of_ne current _ heq]
          exact fun h => (List.mem_cons.mp h).elim heq hmem

theorem agreeAt_of_computedAt {a b : Cells} {id : String} {v : Value}
    (ha : a.computedAt id = some v) (hb : b.computedAt id = some v) : AgreeAt a b id := by
  rcases Option.bind_eq_some_iff.mp ha with ⟨c, hc, hcomputed⟩
  rcases Option.bind_eq_some_iff.mp hb with ⟨c', hc', hcomputed'⟩
  rw [AgreeAt, hc, hc', Option.map_some, Option.map_some, Cell.currentValue, Cell.currentValue,
    hcomputed, hcomputed']

/-- The formulas that have no place in the order show a cycle. -/
theorem computedAt_of_blocked (functions : Registry) {id : String}
    (hcovered : cells.Covered) (hid : id ∈ (DependencyGraph.ofCells cells).blocked) :
    (cells.recompute functions).computedAt id = some .cycle := by
  have hprogress := progress_order functions hcovered
  rw [recompute, calculate, computedAt_foldl_cycle, if_pos hid]
  rcases exists_of_mem_keys hprogress.entry (DependencyGraph.mem_blocked.mp hid).1 with
    ⟨c, _, hc, _⟩
  rw [hc]
  rfl

/-- After the pass every cell shows its computed value. -/
theorem computedAt_recompute (functions : Registry) (hcovered : cells.Covered) (id : String) :
    ((cells.recompute functions).get? id).map Cell.currentValue
      = (cells.recompute functions).computedAt id := by
  have h := progress_recompute functions hcovered
  cases hget : (cells.recompute functions).get? id with
  | none => rw [computedAt, hget]; rfl
  | some c =>
      -- A formula has its value or the error of a cycle, and a literal its own.
      have hsome : ∃ v, c.computed = some v := by
        by_cases hkey : id ∈ (DependencyGraph.ofCells cells).formulas.keys
        · by_cases horder : id ∈ (DependencyGraph.ofCells cells).order
          · rcases (OrderedMap.mem_keys_iff _).mp hkey with ⟨formula, hformula⟩
            have hcomputed := h.upToDate id horder formula hformula
            rw [UpToDate, computedAt, hget] at hcomputed
            exact ⟨_, hcomputed⟩
          · have hcomputed := computedAt_of_blocked functions hcovered
              (DependencyGraph.mem_blocked.mpr ⟨hkey, horder⟩)
            rw [computedAt, hget] at hcomputed
            exact ⟨_, hcomputed⟩
        · exact ⟨_, h.literal id c hget (isFormula_eq_false h.entry hkey hget)⟩
      rcases hsome with ⟨v, hv⟩
      rw [computedAt, hget, Option.map_some, Option.bind_some, Cell.currentValue, hv]

end Cells

namespace Sheet

/-- All formulas of a sheet are regular. -/
def IsRegular (sheet : Sheet) : Prop :=
  ∀ id c formula, sheet.cells.get? id = some c → c.formula? = some formula →
    Formula.IsRegular formula

theorem IsRegular.covered {sheet : Sheet} (h : sheet.IsRegular) : sheet.cells.Covered :=
  fun id c formula hget hformula =>
    Formula.isCovered_of_isRegular (h id c formula hget hformula)

instance (sheet : Sheet) : Decidable sheet.IsRegular :=
  decidable_of_iff (∀ e ∈ sheet.cells.entries, ∀ formula ∈ e.2.formula?, Formula.IsRegular formula)
    ⟨fun h id c formula hget hformula =>
        h (id, c) ((OrderedMap.get?_eq_some_iff _).mp hget) formula hformula,
      fun h e he formula hformula =>
        h e.1 e.2 formula ((OrderedMap.get?_eq_some_iff _).mpr he) hformula⟩

end Sheet

end Spreadsheet
