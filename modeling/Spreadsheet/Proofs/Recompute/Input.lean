import Spreadsheet.Proofs.Dependency.Sheet
import Spreadsheet.Proofs.Recompute.Pass

/-!
# What Recomputation Depends On

The computed values depend on the texts in the cells and on nothing else.

Two collections of cells have the same input if they hold the same literals and
formulas under the same names (`Cells.SameInput`). They may list them in another
order, and differ in their styles and in the values left from before.

This is a case of something more local. The two may also agree only in a region
that no formula in it reads its way out of (`Cells.SameInputOn`). As far as the graph
is concerned, it is enough that they have the same formulas there
(`Cells.SameFormulasOn`): then the graphs have the same edges, although their orders
need not be the same, and so the same formulas reach a cycle. For the others the two
results agree by induction along one of the orders: both are fixpoints, and a covered
formula has one value where the cells that it reads agree.

## Main definitions

* `Cell.input`, `Cells.SameInput`: What was entered in cells.
* `Cells.SameFormulasOn`: The same formulas, in a region that is closed under reading.
* `Cells.SameTextsOn`: The same formulas, and the same literals where there are none.
* `Cells.SameInputOn`: The same literals and formulas in such a region.

## Theorems

* `SameFormulasOn.edge_iff`: The edges in a region depend only on the formulas there.
* `SameFormulasOn.reachesCycle_iff`: And so do the formulas that reach a cycle.
* `SameFormulasOn.agreeAt`: After the pass the formulas of a region show the same, if
  each does as soon as those that it reads do.
* `SameTextsOn.agreeAt`: After the pass the cells of a region show the same.
* `SameTextsOn.computedAt_eq`: The computed values in a region are the same.
* `SameInputOn.computedAt_eq`: The same for cells with the same input.
* `SameInput.computedAt_eq`: With the same input all computed values are the same.
-/

namespace Spreadsheet

/-- What was entered in a cell: its literal and its formula. -/
def Cell.input (c : Cell) : String × Option String := (c.value, c.formula?)

namespace Cells

/-- Two collections of cells hold the same literals and formulas under the same
    names, in whatever order. -/
def SameInput (a b : Cells) : Prop :=
  ∀ id, (a.get? id).map Cell.input = (b.get? id).map Cell.input

/-- Two collections of cells hold the same formulas in a region, and these read nothing
    outside of it. -/
structure SameFormulasOn (region : Set String) (a b : Cells) : Prop where
  /-- The formulas in the region are the same. -/
  formula : ∀ id ∈ region, (a.get? id).bind Cell.formula? = (b.get? id).bind Cell.formula?
  /-- What is read from the region is in it. -/
  closed : ∀ id ∈ region, ∀ formula, (a.get? id).bind Cell.formula? = some formula →
    ∀ id', Formula.Reads formula id' → id' ∈ region

/-- Two collections of cells hold the same formulas in a region and the same literals
    where there are none, and the formulas there read nothing outside of it. The literal
    of a cell with a formula does not count. -/
structure SameTextsOn (region : Set String) (a b : Cells) : Prop extends
    SameFormulasOn region a b where
  /-- The literals in the region are the same. -/
  literal : ∀ id ∈ region, (a.get? id).bind Cell.formula? = none →
    (a.get? id).map Cell.value = (b.get? id).map Cell.value

/-- Two collections of cells hold the same literals and formulas in a region, and the
    formulas there read nothing outside of it. -/
structure SameInputOn (region : Set String) (a b : Cells) : Prop where
  /-- What was entered in the region is the same. -/
  input : ∀ id ∈ region, (a.get? id).map Cell.input = (b.get? id).map Cell.input
  /-- What is read from the region is in it. -/
  closed : ∀ id ∈ region, ∀ formula, (a.get? id).bind Cell.formula? = some formula →
    ∀ id', Formula.Reads formula id' → id' ∈ region

theorem sameInput_of_perm {a b : Cells} (h : a.entries.Perm b.entries) : SameInput a b := by
  intro id
  rw [OrderedMap.get?_eq_of_perm h]

namespace SameFormulasOn

variable {region : Set String} {a b : Cells} {id : String}

theorem symm (h : SameFormulasOn region a b) : SameFormulasOn region b a where
  formula := fun id hid => (h.formula id hid).symm
  closed := fun id hid formula hformula =>
    h.closed id hid formula (by rw [h.formula id hid]; exact hformula)

theorem mem_keys_iff (h : SameFormulasOn region a b) (hid : id ∈ region) :
    id ∈ (DependencyGraph.ofCells a).formulas.keys ↔
      id ∈ (DependencyGraph.ofCells b).formulas.keys := by
  rw [OrderedMap.mem_keys_iff, OrderedMap.mem_keys_iff, DependencyGraph.formulas_ofCells,
    DependencyGraph.formulas_ofCells, h.formula id hid]

/-- An edge from the region stays in it. -/
theorem mem_of_edge (h : SameFormulasOn region a b) (hid : id ∈ region) {id' : String}
    (hedge : (DependencyGraph.ofCells a).Edge id id') : id' ∈ region := by
  rcases (DependencyGraph.edge_ofCells_iff.mp hedge).1 with ⟨formula, hformula, hreads⟩
  exact h.closed id hid formula hformula id' hreads

/-- The edges in a region depend only on the formulas there. -/
theorem edge_iff (h : SameFormulasOn region a b) (hid : id ∈ region) {id' : String} :
    (DependencyGraph.ofCells a).Edge id id' ↔ (DependencyGraph.ofCells b).Edge id id' := by
  have hone : ∀ {a b : Cells}, SameFormulasOn region a b →
      (DependencyGraph.ofCells a).Edge id id' → (DependencyGraph.ofCells b).Edge id id' := by
    intro a b h hedge
    have hid' := h.mem_of_edge hid hedge
    rw [DependencyGraph.edge_ofCells_iff, Cells.ReadsFormula] at hedge ⊢
    rwa [← h.formula id hid, ← h.formula id' hid']
  exact ⟨hone h, hone h.symm⟩

/-- The formulas in a region that reach a cycle depend only on the formulas there. -/
theorem reachesCycle_iff (h : SameFormulasOn region a b) (hid : id ∈ region) :
    (DependencyGraph.ofCells a).ReachesCycle id ↔ (DependencyGraph.ofCells b).ReachesCycle id := by
  have hone : ∀ {a b : Cells}, SameFormulasOn region a b →
      (DependencyGraph.ofCells a).ReachesCycle id →
        (DependencyGraph.ofCells b).ReachesCycle id := by
    intro a b h
    -- A path that starts in the region never leaves it.
    have hpath : ∀ {x y : String}, x ∈ region →
        Relation.ReflTransGen (DependencyGraph.ofCells a).Edge x y →
          y ∈ region ∧ Relation.ReflTransGen (DependencyGraph.ofCells b).Edge x y := by
      intro x y hx hpath
      induction hpath with
      | refl => exact ⟨hx, .refl⟩
      | tail _ hedge ih => exact ⟨h.mem_of_edge ih.1 hedge, ih.2.tail ((h.edge_iff ih.1).mp hedge)⟩
    rintro ⟨id', hreach, hcycle⟩
    rcases hpath hid hreach with ⟨hid', hreach'⟩
    rcases Relation.TransGen.head'_iff.mp hcycle with ⟨next, hedge, hback⟩
    exact ⟨id', hreach', Relation.TransGen.head' ((h.edge_iff hid').mp hedge)
      (hpath (h.mem_of_edge hid' hedge) hback).2⟩
  exact ⟨hone h, hone h.symm⟩

/-- After the pass the formulas of a region show the same, if each of them comes to the
    same value as soon as the formulas that it reads show the same. -/
theorem agreeAt (h : SameFormulasOn region a b) (functions : Registry) (hcovered : a.Covered)
    (hcovered' : b.Covered)
    (hstep : ∀ id ∈ region, ∀ formula, (DependencyGraph.ofCells a).formulas.get? id = some formula →
      (∀ id', Formula.Reads formula id' → ((a.recompute functions).valueAt id').IsPlain) →
      (∀ id', Formula.Reads formula id' → id' ∈ (DependencyGraph.ofCells a).formulas.keys →
        AgreeAt (a.recompute functions) (b.recompute functions) id') →
      Scope.evaluate ⟨a.recompute functions, functions⟩ formula
        = Scope.evaluate ⟨b.recompute functions, functions⟩ formula)
    (hid : id ∈ region) (hkey : id ∈ (DependencyGraph.ofCells a).formulas.keys) :
    AgreeAt (a.recompute functions) (b.recompute functions) id := by
  have ha := progress_recompute functions hcovered
  have hb := progress_recompute functions hcovered'
  by_cases hcycle : (DependencyGraph.ofCells a).ReachesCycle id
  · exact agreeAt_of_computedAt
      (computedAt_of_blocked functions hcovered
        (DependencyGraph.mem_blocked_iff.mpr ⟨hkey, hcycle⟩))
      (computedAt_of_blocked functions hcovered'
        (DependencyGraph.mem_blocked_iff.mpr
          ⟨(h.mem_keys_iff hid).mp hkey, (h.reachesCycle_iff hid).mp hcycle⟩))
  · -- Both results are fixpoints, and agree by induction along the order of one of them.
    refine DependencyGraph.order_induction
      (P := fun id => id ∈ region → AgreeAt (a.recompute functions) (b.recompute functions) id)
      (fun id horder ih hid => ?_) id
      (DependencyGraph.mem_order_iff_not_reachesCycle.mpr ⟨hkey, hcycle⟩) hid
    rcases DependencyGraph.mem_order_iff_not_reachesCycle.mp horder with ⟨hkey, hcycle⟩
    rcases (OrderedMap.mem_keys_iff _).mp hkey with ⟨formula, hformula⟩
    have hformula' : (DependencyGraph.ofCells b).formulas.get? id = some formula := by
      rw [DependencyGraph.formulas_ofCells, ← h.formula id hid, ← DependencyGraph.formulas_ofCells]
      exact hformula
    have horder' : id ∈ (DependencyGraph.ofCells b).order :=
      DependencyGraph.mem_order_iff_not_reachesCycle.mpr
        ⟨(h.mem_keys_iff hid).mp hkey, fun hb => hcycle ((h.reachesCycle_iff hid).mpr hb)⟩
    have hclosed := h.closed id hid formula (by rw [← DependencyGraph.formulas_ofCells, hformula])
    -- What the formula reads is in the region, and is no formula or earlier in the order.
    have hvalue := hstep id hid formula hformula
      (fun id' hreads => ha.isPlain fun hkey' =>
        (DependencyGraph.mem_order_iff.mp horder).2 id' (edge_of_reads hformula hreads hkey'))
      fun id' hreads hkey' => ih id' (edge_of_reads hformula hreads hkey') (hclosed id' hreads)
    have hcomputed := ha.upToDate id horder formula hformula
    rw [UpToDate, hvalue] at hcomputed
    exact agreeAt_of_computedAt hcomputed (hb.upToDate id horder' formula hformula')

end SameFormulasOn

namespace SameTextsOn

variable {region : Set String} {a b : Cells} {id : String}

/-- After the pass the cells of a region show the same. -/
theorem agreeAt (h : SameTextsOn region a b) (functions : Registry) (hcovered : a.Covered)
    (hcovered' : b.Covered) (hid : id ∈ region) :
    AgreeAt (a.recompute functions) (b.recompute functions) id := by
  have hformulas := h.toSameFormulasOn
  have hliteral : ∀ id ∈ region, id ∉ (DependencyGraph.ofCells a).formulas.keys →
      AgreeAt (a.recompute functions) (b.recompute functions) id := by
    intro id hid hkey
    have hnone : (a.get? id).bind Cell.formula? = none := by
      rw [← DependencyGraph.formulas_ofCells]
      exact (OrderedMap.get?_eq_none_iff _ _).mpr hkey
    have hvalue := congrArg (Option.map Value.ofLiteral) (h.literal id hid hnone)
    rw [Option.map_map, Option.map_map] at hvalue
    rw [AgreeAt, (progress_recompute functions hcovered).get?_of_not_mem hkey,
      (progress_recompute functions hcovered').get?_of_not_mem
        (fun hmem => hkey ((hformulas.mem_keys_iff hid).mpr hmem))]
    exact hvalue
  by_cases hkey : id ∈ (DependencyGraph.ofCells a).formulas.keys
  · refine hformulas.agreeAt functions hcovered hcovered'
      (fun id hid formula hformula hplain hread => ?_) hid hkey
    have hclosed := h.closed id hid formula (by rw [← DependencyGraph.formulas_ofCells, hformula])
    refine Scope.evaluate_congr (isCovered_of_get? hcovered hformula) hplain fun id' hreads => ?_
    by_cases hkey' : id' ∈ (DependencyGraph.ofCells a).formulas.keys
    · exact hread id' hreads hkey'
    · exact hliteral id' (hclosed id' hreads) hkey'
  · exact hliteral id hid hkey

/-- The computed values in a region depend only on the texts there. -/
theorem computedAt_eq (h : SameTextsOn region a b) (functions : Registry) (hcovered : a.Covered)
    (hcovered' : b.Covered) (hid : id ∈ region) :
    (a.recompute functions).computedAt id = (b.recompute functions).computedAt id := by
  rw [← computedAt_recompute functions hcovered, ← computedAt_recompute functions hcovered']
  exact h.agreeAt functions hcovered hcovered' hid

end SameTextsOn

namespace SameInputOn

variable {region : Set String} {a b : Cells} {id : String}

theorem formula?_eq (h : SameInputOn region a b) (hid : id ∈ region) :
    (a.get? id).bind Cell.formula? = (b.get? id).bind Cell.formula? := by
  have hinput := congrArg (fun i => i.bind Prod.snd) (h.input id hid)
  simp only [Option.bind_map] at hinput
  exact hinput

theorem sameTextsOn (h : SameInputOn region a b) : SameTextsOn region a b where
  formula := fun _ hid => h.formula?_eq hid
  closed := h.closed
  literal := fun id hid _ => by
    have hinput := congrArg (Option.map Prod.fst) (h.input id hid)
    rw [Option.map_map, Option.map_map] at hinput
    exact hinput

theorem sameFormulasOn (h : SameInputOn region a b) : SameFormulasOn region a b :=
  h.sameTextsOn.toSameFormulasOn

/-- The computed values in a region depend only on the input there. -/
theorem computedAt_eq (h : SameInputOn region a b) (functions : Registry) (hcovered : a.Covered)
    (hcovered' : b.Covered) (hid : id ∈ region) :
    (a.recompute functions).computedAt id = (b.recompute functions).computedAt id :=
  h.sameTextsOn.computedAt_eq functions hcovered hcovered' hid

end SameInputOn

namespace SameInput

variable {a b : Cells}

theorem symm (h : SameInput a b) : SameInput b a := fun id => (h id).symm

/-- The region of all cells is closed. -/
theorem on_univ (h : SameInput a b) : SameInputOn Set.univ a b where
  input := fun id _ => h id
  closed := fun _ _ _ _ id' _ => Set.mem_univ id'

theorem covered (h : SameInput a b) (hcovered : a.Covered) : b.Covered := by
  intro id c formula hget hformula
  have ha := h.on_univ.formula?_eq (Set.mem_univ id)
  rw [hget, Option.bind_some, hformula] at ha
  rcases Option.bind_eq_some_iff.mp ha with ⟨c', hget', hformula'⟩
  exact hcovered id c' formula hget' hformula'

/-- The computed values depend only on the input. -/
theorem computedAt_eq (h : SameInput a b) (functions : Registry) (hcovered : a.Covered)
    (id : String) :
    (a.recompute functions).computedAt id = (b.recompute functions).computedAt id :=
  h.on_univ.computedAt_eq functions hcovered (h.covered hcovered) (Set.mem_univ id)

end SameInput

end Cells

end Spreadsheet
