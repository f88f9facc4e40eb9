import Spreadsheet.Dependency.Order
import Mathlib.Data.List.Chain
import Mathlib.Data.List.Perm.Subperm
import Mathlib.Logic.Relation

/-!
# How Far a Change Reaches

The depth of a graph is the length of the longest chain of readers, if there is
a longest one.

The code goes from the cells of one level to all their readers, and counts the
levels. A cell may stand on many levels, so a level is not a distance: it says
that *some* chain of that length ends in the cell. That is how `depthWithin` is
described (`lt_depthWithin_iff`), by going one level at a time.

Which chains there are is then a question about the graph alone. If no cycle can
be reached, a chain meets no formula twice, so that it is no longer than there
are formulas and the limit never cuts one off. If a cycle can be reached, one can
go around it, so that there are chains of every length and the limit is the
depth.

## Main definitions

* `DependencyGraph.Leads`: A formula cell reads a cell.
* `DependencyGraph.LeadsToCycle`: Some root leads to a cycle of formulas.
* `DependencyGraph.ReadingChain`: Each formula of a list reads the one before it.
* `DependencyGraph.HasChain`: There is a chain of some length from one of the roots.
* `DependencyGraph.IsLongest`: A number is the length of a longest chain.

## Theorems

* `hasChain_succ`: Chains go on from the readers of the roots.
* `lt_depthWithin_iff`: The levels that are counted are the lengths of chains.
* `length_le_of_not_leadsToCycle`: A chain that reaches no cycle is short.
* `LeadsToCycle.hasChain`: A chain that reaches a cycle has no end.
* `depth_isLongest_or_size`: The depth, without a cycle and with one.
-/

namespace Spreadsheet

open Relation

namespace DependencyGraph

variable {graph : DependencyGraph} {roots : List String}

/-- A change leads from a cell to the formula cells that read it. -/
def Leads (graph : DependencyGraph) (id reader : String) : Prop :=
  reader ∈ graph.readersOf id

/-- One of the roots leads to a cell, perhaps itself, that leads back to itself. -/
def LeadsToCycle (graph : DependencyGraph) (roots : List String) : Prop :=
  ∃ root ∈ roots, ∃ id, ReflTransGen graph.Leads root id ∧ TransGen graph.Leads id id

/-- The first formula reads the root, and each other one reads the one before it. -/
def ReadingChain (graph : DependencyGraph) (root : String) (readers : List String) : Prop :=
  (root :: readers).IsChain graph.Leads

/-- A chain of so many readers starts at one of the roots. -/
def HasChain (graph : DependencyGraph) (roots : List String) (n : Nat) : Prop :=
  ∃ root ∈ roots, ∃ readers, graph.ReadingChain root readers ∧ readers.length = n

/-- No chain from the roots has more than `n` readers, and one has as many, unless
    `n` is zero. -/
structure IsLongest (graph : DependencyGraph) (roots : List String) (n : Nat) : Prop where
  /-- No chain is longer. -/
  le : ∀ root ∈ roots, ∀ readers, graph.ReadingChain root readers → readers.length ≤ n
  /-- Some chain is as long. -/
  attained : n ≠ 0 → graph.HasChain roots n

theorem mem_readersOfAny {ids : List String} {reader : String} :
    reader ∈ graph.readersOfAny ids ↔ ∃ id ∈ ids, graph.Leads id reader := by
  simp only [readersOfAny, Leads, readersOf, List.mem_filter, List.any_eq_true]
  constructor
  · rintro ⟨hkey, id, hid, hreads⟩
    exact ⟨id, hid, hkey, hreads⟩
  · rintro ⟨id, hid, hkey, hreads⟩
    exact ⟨hkey, id, hid, hreads⟩

theorem hasChain_zero : graph.HasChain roots 0 ↔ roots ≠ [] := by
  constructor
  · rintro ⟨root, hroot, _⟩
    exact List.ne_nil_of_mem hroot
  · intro hne
    obtain ⟨root, hroot⟩ := List.exists_mem_of_ne_nil roots hne
    exact ⟨root, hroot, [], List.isChain_singleton root, rfl⟩

/-- A chain from the roots goes on with a chain from one of their readers. -/
theorem hasChain_succ {n : Nat} :
    graph.HasChain roots (n + 1) ↔ graph.HasChain (graph.readersOfAny roots) n := by
  constructor
  · rintro ⟨root, hroot, readers, hchain, hlen⟩
    obtain ⟨reader, readers, rfl⟩ := List.exists_cons_of_length_eq_add_one hlen
    obtain ⟨hleads, hrest⟩ := List.isChain_cons_cons.mp hchain
    exact ⟨reader, mem_readersOfAny.mpr ⟨root, hroot, hleads⟩, readers, hrest,
      Nat.succ.inj hlen⟩
  · rintro ⟨reader, hreader, readers, hchain, hlen⟩
    obtain ⟨root, hroot, hleads⟩ := mem_readersOfAny.mp hreader
    exact ⟨root, hroot, reader :: readers, List.isChain_cons_cons.mpr ⟨hleads, hchain⟩,
      congrArg Nat.succ hlen⟩

/-- The levels that are counted below the limit are those that a chain reaches. -/
theorem lt_depthWithin_iff {limit n : Nat} :
    n < graph.depthWithin limit roots ↔ n < limit ∧ graph.HasChain roots (n + 1) := by
  induction limit generalizing roots n with
  | zero => simp [depthWithin]
  | succ limit ih =>
      rw [depthWithin, hasChain_succ]
      by_cases hnone : graph.readersOfAny roots = []
      -- Nothing reads the cells of this level, and no chain goes on.
      · simp [hnone, HasChain]
      · rw [if_neg (by simpa using hnone)]
        cases n with
        | zero => simp [hasChain_zero, hnone, Nat.add_comm 1]
        | succ n =>
            rw [Nat.add_comm 1, Nat.add_lt_add_iff_right, ih, Nat.add_lt_add_iff_right]

/-- What a chain can lead to is a formula. -/
theorem mem_keys_of_transGen {id reader : String} (h : TransGen graph.Leads id reader) :
    reader ∈ graph.formulas.keys := by
  obtain ⟨_, _, hleads⟩ := TransGen.tail'_iff.mp h
  exact (List.mem_filter.mp hleads).1

/-- Without a cycle a chain meets no formula twice, so there are as many formulas. -/
theorem length_le_of_not_leadsToCycle (hcycle : ¬ graph.LeadsToCycle roots) {root : String}
    (hroot : root ∈ roots) {readers : List String} (hchain : graph.ReadingChain root readers) :
    readers.length ≤ graph.formulas.size := by
  have hpairwise : (root :: readers).Pairwise (TransGen graph.Leads) :=
    (hchain.imp fun _ _ => TransGen.single).pairwise
  obtain ⟨hbelow, hapart⟩ := List.pairwise_cons.mp hpairwise
  -- A formula that comes twice leads back to itself.
  have hnodup : readers.Nodup := by
    refine hapart.imp_of_mem ?_
    rintro id id' hid _ hleads rfl
    exact hcycle ⟨root, hroot, id, (hbelow id hid).to_reflTransGen, hleads⟩
  have hsub : readers.Subperm graph.formulas.keys :=
    List.subperm_of_subset hnodup fun id hid => mem_keys_of_transGen (hbelow id hid)
  have hlen := hsub.length_le
  rwa [OrderedMap.keys, List.length_map] at hlen

/-- The readers of roots that lead to a cycle lead to it as well. -/
theorem LeadsToCycle.readers (h : graph.LeadsToCycle roots) :
    graph.LeadsToCycle (graph.readersOfAny roots) := by
  obtain ⟨root, hroot, id, hpath, hcycle⟩ := h
  -- If the root is on the cycle itself, the first step is one around it.
  obtain ⟨reader, hleads, hpath'⟩ := TransGen.head'_iff.mp (TransGen.trans_right hpath hcycle)
  exact ⟨reader, mem_readersOfAny.mpr ⟨root, hroot, hleads⟩, id, hpath', hcycle⟩

theorem LeadsToCycle.hasChain (h : graph.LeadsToCycle roots) (n : Nat) :
    graph.HasChain roots n := by
  induction n generalizing roots with
  | zero =>
      obtain ⟨root, hroot, _⟩ := h
      exact hasChain_zero.mpr (List.ne_nil_of_mem hroot)
  | succ n ih => exact hasChain_succ.mpr (ih h.readers)

theorem isLongest_depth (hcycle : ¬ graph.LeadsToCycle roots) :
    graph.IsLongest roots (graph.depth roots) := by
  constructor
  · intro root hroot readers hchain
    have hsize := length_le_of_not_leadsToCycle hcycle hroot hchain
    by_contra hlong
    -- The level that is not counted is within the limit, and the chain reaches it.
    have hlevel : graph.HasChain roots (readers.length - 1 + 1) :=
      ⟨root, hroot, readers, hchain, by omega⟩
    have hlt := lt_depthWithin_iff.mpr
      ⟨show readers.length - 1 < graph.formulas.size by omega, hlevel⟩
    rw [depth] at hlong
    omega
  · intro hne
    have hlast := (lt_depthWithin_iff.mp (Nat.sub_one_lt hne)).2
    exact Nat.sub_one_add_one hne ▸ hlast

theorem depth_of_leadsToCycle (hcycle : graph.LeadsToCycle roots) :
    graph.depth roots = graph.formulas.size := by
  have hlevel : ∀ n, n < graph.depth roots ↔ n < graph.formulas.size := fun n => by
    rw [depth, lt_depthWithin_iff, and_iff_left (hcycle.hasChain (n + 1))]
  have hle := hlevel graph.formulas.size
  have hge := hlevel (graph.depth roots)
  omega

theorem depth_eq_zero_iff :
    graph.depth roots = 0 ↔ ∀ root ∈ roots, graph.readersOf root = [] := by
  constructor
  · intro hzero root hroot
    refine List.eq_nil_iff_forall_not_mem.mpr fun reader hleads => ?_
    have hsize : 0 < graph.formulas.size := by
      simpa [OrderedMap.keys, OrderedMap.size]
        using List.length_pos_of_mem (List.mem_filter.mp hleads).1
    -- A reader of a root would be a chain of one step.
    have hlt : 0 < graph.depth roots := lt_depthWithin_iff.mpr
      ⟨hsize, root, hroot, [reader], List.isChain_pair.mpr hleads, rfl⟩
    omega
  · intro hnone
    by_contra hne
    obtain ⟨reader, hreader, _⟩ :=
      hasChain_succ.mp (lt_depthWithin_iff.mp (Nat.pos_of_ne_zero hne)).2
    obtain ⟨root, hroot, hleads⟩ := mem_readersOfAny.mp hreader
    rw [Leads, hnone root hroot] at hleads
    exact List.not_mem_nil hleads

/-- If no cycle can be reached from the roots, the depth is the number of edges of
    the longest chain of readers from one of them; if one can, it is the number of
    formulas. It is zero if nothing reads a root. -/
theorem depth_isLongest_or_size (graph : DependencyGraph) (roots : List String) :
    (¬ graph.LeadsToCycle roots → graph.IsLongest roots (graph.depth roots)) ∧
      (graph.LeadsToCycle roots → graph.depth roots = graph.formulas.size) ∧
      (graph.depth roots = 0 ↔ ∀ root ∈ roots, graph.readersOf root = []) := by
  exact ⟨isLongest_depth, depth_of_leadsToCycle, depth_eq_zero_iff⟩

/-- `C1` reads the root and `B1` as well, so it stands on two levels, and the
    longer chain counts. A root on the cycle of `D1` and `E1` has no longest chain. -/
theorem depth_isLongest_or_size_four :
    let graph := ofFormulas
      [("B1", "=A1+1"), ("C1", "=A1+B1"), ("D1", "=E1"), ("E1", "=D1")] {}
    (¬ graph.LeadsToCycle ["A1"] ∧ graph.IsLongest ["A1"] 2) ∧
      graph.LeadsToCycle ["D1"] ∧ graph.depth ["D1"] = 4 := by
  intro graph
  have hend : ¬ graph.LeadsToCycle ["A1"] := by
    intro hcycle
    -- Three levels up from the root nothing is left.
    have hchain := hcycle.hasChain 3
    rw [hasChain_succ, hasChain_succ, hasChain_succ, hasChain_zero] at hchain
    exact hchain (by decide +kernel)
  have haround : graph.LeadsToCycle ["D1"] := by
    have hthere : "E1" ∈ graph.readersOf "D1" := by decide +kernel
    have hback : "D1" ∈ graph.readersOf "E1" := by decide +kernel
    have haround : TransGen graph.Leads "D1" "D1" := (TransGen.single hthere).tail hback
    exact ⟨"D1", List.mem_singleton_self _, "D1", ReflTransGen.refl, haround⟩
  have hdepth : graph.depth ["A1"] = 2 := by decide +kernel
  refine ⟨⟨hend, ?_⟩, haround, (depth_isLongest_or_size graph ["D1"]).2.1 haround⟩
  rw [← hdepth]
  exact (depth_isLongest_or_size graph ["A1"]).1 hend

end DependencyGraph

end Spreadsheet
