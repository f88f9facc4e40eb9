import Spreadsheet.Proofs.Dependency.Expanded

/-!
# Formulas That Are Replaced

What a graph knows of a cell whose formula was added more than once.

A graph grows by one formula at a time. The text of a formula and the cells that it
mentions are kept under the name of its cell, where a later formula takes their place.
The other two kinds of entries are not undone. The cells that an earlier formula
mentioned still list its cell as a reader, and its blocks stay until a formula comes that
has some of its own. So the reader lists are those of all formulas that were ever added,
and the blocks are those of the last one that named any.

Whether this matters can be told from the formulas: it does not exactly if every formula
that was replaced mentioned no more than the latest one of its cell, and named no block
unless that one does too. This is so for the graph of a sheet, which has one formula for
each cell. Then the graph is exact, and says what the graph of the latest formulas alone
says.

## Main definitions

* `DependencyGraph.latest?`: The formula that was added last for a cell.
* `DependencyGraph.IsCurrent`: The entries are those of the latest formulas.
* `DependencyGraph.AreSuperseded`: The formulas that were replaced say no more than the
  latest ones.

## Theorems

* `mem_dependents_ofFormulas`: Which readers a cell is listed with.
* `blocks_ofFormulas`: Which blocks a cell is kept with.
* `areSuperseded_of_nodup`: One formula for each cell replaces none.
* `isExact_of_areSuperseded`: When the entries are those of the latest formulas.
* `isCurrent_iff`: When what the graph says depends on the latest formulas only.
* `not_isCurrent_cycle`: A formula that was replaced can leave a cycle behind.
-/

namespace Spreadsheet

namespace DependencyGraph

/-- The formula that was added last for a cell. -/
def latest? (added : List (String × String)) (id : String) : Option String :=
  added.reverse.lookup id

/-- The entries of the graph of some formulas, added one after the other, are those of the
    latest formula of each cell, and what the graph says is what these say. -/
structure IsCurrent (added : List (String × String)) : Prop where
  /-- The cells that the latest formula mentions are kept. -/
  dependencies : ∀ id, (ofFormulas added {}).dependencies.get? id
    = (latest? added id).map Formula.references
  /-- The reader lists are the reverse of these. -/
  dependents : ∀ id reader, reader ∈ ((ofFormulas added {}).dependents.get? id).getD [] ↔
    ∃ references, (ofFormulas added {}).dependencies.get? reader = some references ∧
      id ∈ references
  /-- The blocks that the latest formula names are kept, if there are some. -/
  blocks : ∀ id, (ofFormulas added {}).blocks.get? id
    = ((latest? added id).map Formula.ranges).filter fun blocks => !blocks.isEmpty
  /-- The readers of a cell are the cells whose latest formula reads it. -/
  readersOf : ∀ id reader, reader ∈ (ofFormulas added {}).readersOf id ↔
    ∃ formula, latest? added reader = some formula ∧ Formula.Reads formula id
  /-- The order is that of the latest formulas alone. -/
  order : (ofFormulas added {}).order = (ofFormulas (OrderedMap.ofList added).entries {}).order
  /-- So are the formulas that have no place in it. -/
  blocked : (ofFormulas added {}).blocked
    = (ofFormulas (OrderedMap.ofList added).entries {}).blocked

/-- Each formula that was replaced mentioned no more than the latest one of its cell, and
    named a block only if that one does. -/
def AreSuperseded (added : List (String × String)) : Prop :=
  ∀ id formula latest, (id, formula) ∈ added → latest? added id = some latest →
    (∀ reference ∈ Formula.references formula, reference ∈ Formula.references latest) ∧
      (Formula.ranges latest = [] → Formula.ranges formula = [])

variable {added : List (String × String)} {id formula : String}

theorem latest?_concat (added : List (String × String)) (e : String × String) (id : String) :
    latest? (added ++ [e]) id = if id = e.1 then some e.2 else latest? added id :=
  OrderedMap.lookup_reverse_concat added e id

theorem mem_of_latest? (h : latest? added id = some formula) : (id, formula) ∈ added :=
  OrderedMap.mem_of_lookup_reverse h

theorem latest?_eq_none_iff : latest? added id = none ↔ ∀ formula, (id, formula) ∉ added := by
  rw [latest?, List.lookup_eq_none_iff]
  simp only [List.mem_reverse, bne_iff_ne, ne_eq, Prod.forall]
  exact ⟨fun h formula hmem => h id formula hmem rfl,
    fun h id' formula hmem heq => h formula (heq ▸ hmem)⟩

theorem exists_latest? (h : (id, formula) ∈ added) : ∃ latest, latest? added id = some latest :=
  Option.ne_none_iff_exists'.mp fun hnone => latest?_eq_none_iff.mp hnone formula h

/-- If some formulas are passed over and the latest one is not, then it stays the
    latest. -/
theorem latest?_filter {p : String × String → Bool} (h : latest? added id = some formula)
    (hp : p (id, formula) = true) : latest? (added.filter p) id = some formula := by
  rcases List.lookup_eq_some_iff.mp h with ⟨after, before, heq, hafter⟩
  rw [latest?, List.lookup_eq_some_iff]
  refine ⟨after.filter p, before.filter p, ?_, fun e he => hafter e (List.mem_filter.mp he).1⟩
  rw [← List.filter_reverse, heq, List.filter_append, List.filter_cons_of_pos hp]

theorem ofFormulas_concat (added : List (String × String)) (e : String × String)
    (graph : DependencyGraph) :
    ofFormulas (added ++ [e]) graph = (ofFormulas added graph).addFormula e.1 e.2 := by
  rw [ofFormulas, List.foldl_append]
  rfl

/-- A later formula of a cell keeps the place of the first. -/
theorem formulas_ofFormulas (added : List (String × String)) :
    (ofFormulas added {}).formulas = OrderedMap.ofList added := by
  induction added using List.reverseRecOn with
  | nil => rfl
  | append_singleton added e ih =>
      rw [ofFormulas_concat, OrderedMap.ofList_concat, ← ih]
      rfl

theorem get?_formulas_ofFormulas (added : List (String × String)) (id : String) :
    (ofFormulas added {}).formulas.get? id = latest? added id := by
  rw [formulas_ofFormulas, OrderedMap.get?_ofList]
  rfl

/-- The cells that are kept with a cell are those that its latest formula mentions. -/
theorem dependencies_ofFormulas (added : List (String × String)) (id : String) :
    (ofFormulas added {}).dependencies.get? id = (latest? added id).map Formula.references := by
  induction added using List.reverseRecOn with
  | nil => rfl
  | append_singleton added e ih =>
      rw [ofFormulas_concat, latest?_concat]
      show ((ofFormulas added {}).dependencies.insert e.1 _).get? id = _
      rw [OrderedMap.get?_insert, ih]
      split <;> rfl

/-- The readers that are listed with a cell are those of all formulas that were added. -/
theorem mem_dependents_ofFormulas {reader : String} :
    reader ∈ ((ofFormulas added {}).dependents.get? id).getD [] ↔
      ∃ formula, (reader, formula) ∈ added ∧ id ∈ Formula.references formula := by
  -- The formulas are added one after the other, so the induction is on the end of the list.
  induction added using List.reverseRecOn with
  | nil => exact iff_of_false List.not_mem_nil fun h => List.not_mem_nil h.choose_spec.1
  | append_singleton added e ih =>
      rw [ofFormulas_concat]
      show reader ∈ (((Formula.references e.2).foldl (addReader e.1)
        (ofFormulas added {}).dependents).get? id).getD [] ↔ _
      rw [mem_addReaders, ih]
      constructor
      · rintro (⟨formula, hmem, hid⟩ | ⟨rfl, hid⟩)
        · exact ⟨formula, List.mem_append_left _ hmem, hid⟩
        · exact ⟨e.2, List.mem_append_right _ List.mem_cons_self, hid⟩
      · rintro ⟨formula, hmem, hid⟩
        rcases List.mem_append.mp hmem with hmem | hmem
        · exact Or.inl ⟨formula, hmem, hid⟩
        · rw [← List.mem_singleton.mp hmem]
          exact Or.inr ⟨rfl, hid⟩

/-- The blocks that are kept with a cell are those of its last formula that names any. -/
theorem blocks_ofFormulas (added : List (String × String)) (id : String) :
    (ofFormulas added {}).blocks.get? id
      = (latest? (added.filter fun e => !(Formula.ranges e.2).isEmpty) id).map Formula.ranges := by
  induction added using List.reverseRecOn with
  | nil => rfl
  | append_singleton added e ih =>
      rw [ofFormulas_concat, List.filter_append]
      show ((if (Formula.ranges e.2).isEmpty then (ofFormulas added {}).blocks
        else (ofFormulas added {}).blocks.insert e.1 (Formula.ranges e.2)).get? id) = _
      by_cases hempty : (Formula.ranges e.2).isEmpty = true
      · rw [if_pos hempty, ih, List.filter_cons_of_neg (by simp only [hempty]; decide),
          List.filter_nil, List.append_nil]
      · rw [if_neg hempty, List.filter_cons_of_pos (by simpa using hempty), List.filter_nil,
          latest?_concat, OrderedMap.get?_insert, ih]
        split <;> rfl

/-- Where each cell has one formula, none was replaced. -/
theorem areSuperseded_of_nodup (h : (added.map Prod.fst).Nodup) : AreSuperseded added := by
  intro id formula latest hmem hlatest
  have heq := List.inj_on_of_nodup_map h hmem (mem_of_latest? hlatest) rfl
  rw [(Prod.mk.inj heq).2]
  exact ⟨fun _ h => h, fun h => h⟩

/-- The latest formula is the last that names blocks, if it names any. -/
theorem blocks_eq_of_areSuperseded (h : AreSuperseded added) (id : String) :
    (ofFormulas added {}).blocks.get? id
      = ((latest? added id).map Formula.ranges).filter fun blocks => !blocks.isEmpty := by
  rw [blocks_ofFormulas]
  cases hlatest : latest? added id with
  | none =>
      have hnone : latest? (added.filter fun e => !(Formula.ranges e.2).isEmpty) id = none :=
        latest?_eq_none_iff.mpr fun formula hmem =>
          latest?_eq_none_iff.mp hlatest formula (List.mem_filter.mp hmem).1
      rw [hnone]
      rfl
  | some latest =>
      rw [Option.map_some, Option.filter_some]
      by_cases hempty : Formula.ranges latest = []
      · -- Then no formula of the cell names any.
        have hnone : latest? (added.filter fun e => !(Formula.ranges e.2).isEmpty) id = none := by
          refine latest?_eq_none_iff.mpr fun formula hmem => ?_
          rcases List.mem_filter.mp hmem with ⟨hmem, hranges⟩
          rw [(h id formula latest hmem hlatest).2 hempty] at hranges
          cases hranges
        rw [hnone, hempty]
        rfl
      · have hranges : (!(Formula.ranges latest).isEmpty) = true := by
          rw [Bool.not_eq_true', List.isEmpty_eq_false_iff]
          exact hempty
        rw [latest?_filter hlatest hranges, Option.map_some, if_pos hranges]

/-- Where no formula that was replaced says more than the latest one, the entries are
    those of the latest formulas. -/
theorem isExact_of_areSuperseded (h : AreSuperseded added) : (ofFormulas added {}).IsExact where
  dependents := fun id reader => by
    rw [mem_dependents_ofFormulas, get?_formulas_ofFormulas]
    constructor
    · rintro ⟨formula, hmem, hid⟩
      -- What a replaced formula reads, the latest one reads as well.
      rcases exists_latest? hmem with ⟨latest, hlatest⟩
      exact ⟨latest, hlatest, (h reader formula latest hmem hlatest).1 id hid⟩
    · rintro ⟨latest, hlatest, hid⟩
      exact ⟨latest, mem_of_latest? hlatest, hid⟩
  blocks := fun reader block => by
    rw [blocks_eq_of_areSuperseded h, get?_formulas_ofFormulas]
    cases latest? added reader with
    | none => exact iff_of_false List.not_mem_nil fun h => Option.some_ne_none _ h.choose_spec.1.symm
    | some latest =>
        -- A formula without ranges has no entry.
        rw [Option.map_some, Option.filter_some]
        simp only [Option.some.injEq, exists_eq_left']
        split
        · rfl
        · rename_i hempty
          rw [Bool.not_eq_true', Bool.not_eq_false, List.isEmpty_iff] at hempty
          rw [hempty]
          rfl

/-- What the graph says depends only on the latest formula of each cell exactly if each
    formula that was replaced mentioned no more than the latest one, and named a block
    only if that one does. -/
theorem isCurrent_iff (added : List (String × String)) : IsCurrent added ↔ AreSuperseded added := by
  constructor
  · intro hcurrent id formula latest hmem hlatest
    refine ⟨fun reference hreference => ?_, fun hempty => ?_⟩
    · -- The reader is listed because of the formula that was replaced.
      have hlisted := mem_dependents_ofFormulas.mpr ⟨formula, hmem, hreference⟩
      rcases (hcurrent.dependents reference id).mp hlisted with ⟨references, hreferences, hin⟩
      rw [hcurrent.dependencies, hlatest, Option.map_some, Option.some.injEq] at hreferences
      rwa [hreferences]
    · have hblocks := hcurrent.blocks id
      rw [blocks_ofFormulas, hlatest, Option.map_some, hempty] at hblocks
      have hnone := Option.map_eq_none_iff.mp hblocks
      by_contra hranges
      refine latest?_eq_none_iff.mp hnone formula (List.mem_filter.mpr ⟨hmem, ?_⟩)
      rw [Bool.not_eq_true', List.isEmpty_eq_false_iff]
      exact hranges
  · intro hsuperseded
    have hexact := isExact_of_areSuperseded hsuperseded
    -- The graph of the latest formulas has the same formulas, and is exact as well.
    rcases isExact_empty.ofFormulas (OrderedMap.ofList added).nodup_keys with ⟨hlatest, hentries⟩
    have hformulas : (ofFormulas added {}).formulas
        = (ofFormulas (OrderedMap.ofList added).entries {}).formulas := by
      rw [formulas_ofFormulas]
      exact (OrderedMap.ext_get? (congrArg (List.map Prod.fst) hentries)
        fun id => congrArg (List.lookup id) hentries).symm
    have hreads : ∀ id reader, (ofFormulas added {}).isReader reader id
        = (ofFormulas (OrderedMap.ofList added).entries {}).isReader reader id := by
      intro id reader
      rw [Bool.eq_iff_iff, hexact.isReader_iff, hlatest.isReader_iff, hformulas]
    have horder : (ofFormulas added {}).order
        = (ofFormulas (OrderedMap.ofList added).entries {}).order :=
      order_congr hformulas fun id _ reader => hreads id reader
    refine ⟨dependencies_ofFormulas added, fun id reader => ?_, blocks_eq_of_areSuperseded hsuperseded,
      fun id reader => ?_, horder, ?_⟩
    · rw [hexact.dependents, get?_formulas_ofFormulas, dependencies_ofFormulas]
      simp only [Option.map_eq_some_iff, exists_exists_and_eq_and]
    · rw [readersOf, List.mem_filter, hexact.isReader_iff, get?_formulas_ofFormulas,
        OrderedMap.mem_keys_iff, get?_formulas_ofFormulas]
      exact and_iff_right_of_imp fun h => h.imp fun _ h => h.1
    · rw [blocked, blocked, horder, hformulas]

/-- A formula that was replaced can leave a cycle behind: the formula of `B1` reads `A1`,
    which does not read `B1` any more. -/
theorem not_isCurrent_cycle : ¬ ∀ added, IsCurrent added := by
  intro hcurrent
  have horder := (hcurrent
    [("A1", "=B1+SUM(D1:D2)"), ("B1", "=A1"), ("C1", "=B1"), ("A1", "=2")]).order
  exact absurd horder (by decide +kernel)

end DependencyGraph

end Spreadsheet
