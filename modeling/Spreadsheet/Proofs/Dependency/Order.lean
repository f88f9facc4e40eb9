import Spreadsheet.Dependency.Order
import Mathlib.Data.Fintype.EquivFin
import Mathlib.Data.List.Nodup
import Mathlib.Logic.Relation

/-!
# Evaluation Orders

The order of a graph puts every formula behind the formulas that it reads, and
leaves out exactly those that reach a cycle.

The walk keeps counts, and the invariant says what they count (`Walk`): each
formula waits for the formulas it reads that are not done, what is done or in the
queue is what waits for nothing, and what is done came after all it reads. One
step takes a formula off the queue, which lowers the counts of its readers by
one, and those that reach zero are the ones that join the queue. Since nothing
joins twice, the steps suffice, and the walk ends with an empty queue: then a
formula is done exactly if all it reads are done.

That equation determines the order as a set. Below a formula that reaches no
cycle there are only finitely many formulas and no infinite descent, so it is
done by well-founded induction; and a cycle among what is done would be a formula
that stands before itself.

## Main definitions

* `DependencyGraph.Edge`: A formula cell reads another formula cell.
* `DependencyGraph.ReachesCycle`: A formula on a cycle, or that leads to one.
* `DependencyGraph.remaining`: How many formulas a formula still waits for.
* `DependencyGraph.Walk`: The invariant of the walk.

## Theorems

* `Walk.remaining_concat_eq_zero_iff`: What waits for nothing when a formula is done.
* `Walk.step`: One formula is done.
* `Walk.settle`: The walk ends with an empty queue.
* `nodup_order`: No formula is evaluated twice.
* `mem_front_of_order`: What a formula reads stands before it.
* `mem_order_iff`: A formula has a place if all that it reads have one.
* `order_induction`: Induction along the order.
* `mem_blocked_iff`: The blocked formulas are those that reach a cycle.
-/

namespace Spreadsheet

open Relation

namespace DependencyGraph

variable {graph : DependencyGraph}

/-- A formula cell reads another formula cell, or itself. -/
def Edge (graph : DependencyGraph) (reader id : String) : Prop :=
  reader ∈ graph.formulas.keys ∧ id ∈ graph.formulas.keys ∧ graph.isReader reader id = true

/-- A formula lies on a cycle of reads, or reads its way to one. -/
def ReachesCycle (graph : DependencyGraph) (id : String) : Prop :=
  ∃ id', ReflTransGen graph.Edge id id' ∧ TransGen graph.Edge id' id'

/-- The number of formula cells that a formula reads and that are not done. -/
def remaining (graph : DependencyGraph) (done : List String) (reader : String) : Nat :=
  (graph.formulas.keys.filter fun id => graph.isReader reader id && !done.contains id).length

theorem remaining_nil (reader : String) : graph.remaining [] reader = graph.waitingFor reader := by
  rw [remaining, waitingFor]
  simp only [List.contains_nil, Bool.not_false, Bool.and_true]

theorem remaining_eq_zero {done : List String} {reader : String} :
    graph.remaining done reader = 0 ↔
      ∀ id ∈ graph.formulas.keys, graph.isReader reader id = true → id ∈ done := by
  rw [remaining, List.length_eq_zero_iff, List.filter_eq_nil_iff]
  refine forall₂_congr fun id _ => ?_
  rw [Bool.and_eq_true, Bool.not_eq_true', not_and, Bool.not_eq_false, List.contains_iff_mem]

/-- A formula that is done takes one off the count of each of its readers. -/
theorem remaining_concat {done : List String} {id : String} (hid : id ∈ graph.formulas.keys)
    (hdone : id ∉ done) (reader : String) :
    graph.remaining (done ++ [id]) reader
      = if graph.isReader reader id then graph.remaining done reader - 1
        else graph.remaining done reader := by
  -- The keys are all different, so to leave one out is to erase it.
  have hnodup : (graph.formulas.keys.filter
      fun id' => graph.isReader reader id' && !done.contains id').Nodup :=
    graph.formulas.nodup_keys.filter _
  have hfilter : (graph.formulas.keys.filter
        fun id' => graph.isReader reader id' && !(done ++ [id]).contains id')
      = (graph.formulas.keys.filter
        fun id' => graph.isReader reader id' && !done.contains id').erase id := by
    rw [List.Nodup.erase_eq_filter hnodup, List.filter_filter]
    refine List.filter_congr fun id' _ => ?_
    by_cases heq : id' = id
    · simp [heq]
    · simp [heq]
  rw [remaining, remaining, hfilter]
  by_cases hreader : graph.isReader reader id = true
  · rw [if_pos hreader, List.length_erase_of_mem]
    rw [List.mem_filter, hreader, Bool.true_and, Bool.not_eq_true', List.contains_eq_mem,
      decide_eq_false_iff_not]
    exact ⟨hid, hdone⟩
  · rw [if_neg hreader, List.erase_of_not_mem]
    rw [List.mem_filter, Bool.and_eq_true]
    exact fun h => hreader h.2.1

/-- What is known after some formulas are done, and some are in the queue. -/
structure Walk (graph : DependencyGraph) (done : List String) (waiting : List (String × Nat))
    (queue : List String) : Prop where
  /-- Each formula waits for what it reads and is not done. -/
  waiting_eq : waiting = graph.formulas.keys.map fun reader => (reader, graph.remaining done reader)
  /-- No formula is ready twice. -/
  nodup : (done ++ queue).Nodup
  /-- The formulas that are done or ready are those that wait for nothing. -/
  mem_iff : ∀ id, id ∈ done ++ queue ↔ id ∈ graph.formulas.keys ∧ graph.remaining done id = 0
  /-- What is done came after all that it reads. -/
  ordered : ∀ front id back, done = front ++ id :: back → ∀ id', graph.Edge id id' → id' ∈ front

namespace Walk

variable {done queue : List String} {waiting : List (String × Nat)}

theorem mem_keys (h : graph.Walk done waiting queue) {id : String} (hid : id ∈ done ++ queue) :
    id ∈ graph.formulas.keys :=
  ((h.mem_iff id).mp hid).1

theorem freed_eq (h : graph.Walk done waiting queue) (id : String) :
    graph.freed id waiting
      = graph.formulas.keys.filter fun reader =>
          graph.isReader reader id && graph.remaining done reader == 1 := by
  rw [freed, h.waiting_eq, List.filter_map, List.map_map]
  exact List.map_id _

/-- What is freed by a formula is what reads it and waits for nothing else. -/
theorem mem_freed_iff (h : graph.Walk done waiting queue) {id reader : String} :
    reader ∈ graph.freed id waiting ↔ reader ∈ graph.formulas.keys ∧
      graph.isReader reader id = true ∧ graph.remaining done reader = 1 := by
  rw [h.freed_eq, List.mem_filter, Bool.and_eq_true, beq_iff_eq]

/-- A formula that waits for nothing may be done next. -/
theorem ordered_concat (h : graph.Walk done waiting queue) {id : String}
    (hid : graph.remaining done id = 0) {front back : List String} {reader : String}
    (heq : done ++ [id] = front ++ reader :: back) {id' : String}
    (hedge : graph.Edge reader id') : id' ∈ front := by
  rcases List.eq_nil_or_concat back with rfl | ⟨back, last, rfl⟩
  · -- The formula is the one that is done now, and all that it reads is done.
    rcases List.append_inj' heq rfl with ⟨rfl, hreader⟩
    rw [(List.cons.inj hreader).1] at hid
    exact remaining_eq_zero.mp hid id' hedge.2.1 hedge.2.2
  · -- It was done before, and what came before it still does.
    rw [List.concat_eq_append, ← List.cons_append, ← List.append_assoc] at heq
    exact h.ordered front reader back (List.append_inj' heq rfl).1 id' hedge

/-- At the start the formulas that read no formula are ready. -/
theorem start (graph : DependencyGraph) :
    graph.Walk [] (graph.formulas.keys.map fun reader => (reader, graph.waitingFor reader))
      (((graph.formulas.keys.map fun reader => (reader, graph.waitingFor reader)).filter
        fun (_, n) => n == 0).map Prod.fst) := by
  have hqueue : ((graph.formulas.keys.map fun reader => (reader, graph.waitingFor reader)).filter
        fun (_, n) => n == 0).map Prod.fst
      = graph.formulas.keys.filter fun reader => graph.waitingFor reader == 0 := by
    rw [List.filter_map, List.map_map]
    exact List.map_id _
  -- Nothing is done yet, so every count is the one that the walk begins with.
  rw [hqueue]
  constructor
  · simp only [remaining_nil]
  · exact graph.formulas.nodup_keys.filter _
  · intro id
    rw [List.nil_append, List.mem_filter, beq_iff_eq, remaining_nil]
  · -- There is no formula that is done.
    intro front id back heq
    exact absurd heq.symm (List.append_ne_nil_of_right_ne_nil _ (List.cons_ne_nil _ _))

/-- When a formula is done, its readers that waited for nothing else wait for nothing any
    more, and so does what waited for nothing before. -/
theorem remaining_concat_eq_zero_iff {id : String} (hid : id ∈ graph.formulas.keys)
    (hdone : id ∉ done) (reader : String) :
    graph.remaining (done ++ [id]) reader = 0 ↔ graph.remaining done reader = 0 ∨
      graph.isReader reader id = true ∧ graph.remaining done reader = 1 := by
  rw [remaining_concat hid hdone]
  by_cases hreads : graph.isReader reader id = true
  · rw [if_pos hreads, and_iff_right hreads]
    omega
  · rw [if_neg hreads]
    exact (or_iff_left fun h => hreads h.1).symm

/-- The first formula of the queue is done, and the readers it was the last for
    join the queue. -/
theorem step {id : String} (h : graph.Walk done waiting (id :: queue)) :
    graph.Walk (done ++ [id]) (graph.release id waiting) (queue ++ graph.freed id waiting) := by
  have hid : id ∈ done ++ id :: queue := List.mem_append_right _ List.mem_cons_self
  have hkey := h.mem_keys hid
  have happend : done ++ id :: queue = (done ++ [id]) ++ queue := by
    rw [List.append_assoc, List.singleton_append]
  have hdone : id ∉ done := fun hm =>
    (List.nodup_append.mp h.nodup).2.2 id hm id List.mem_cons_self rfl
  constructor
  · rw [release, h.waiting_eq, List.map_map]
    refine List.map_congr_left fun reader _ => ?_
    rw [remaining_concat hkey hdone]
    rfl
  · rw [← List.append_assoc, ← happend]
    refine List.nodup_append.mpr ⟨h.nodup, ?_, ?_⟩
    · rw [h.freed_eq]
      exact graph.formulas.nodup_keys.filter _
    · -- What is freed still waited for one formula, so it was not ready before.
      intro reader hreader reader' hreader' heq
      have hzero := ((h.mem_iff reader).mp hreader).2
      have hone := (h.mem_freed_iff.mp hreader').2.2
      rw [← heq] at hone
      omega
  · intro reader
    rw [← List.append_assoc, ← happend, List.mem_append, h.mem_iff, h.mem_freed_iff,
      remaining_concat_eq_zero_iff hkey hdone, ← and_or_left]
  · intro front reader back heq id' hedge
    exact h.ordered_concat ((h.mem_iff id).mp hid).2 heq hedge

/-- The walk ends with an empty queue, if there are steps for all formulas that
    are not done. -/
theorem settle {steps : Nat} (h : graph.Walk done waiting queue)
    (hsteps : done.length + steps = graph.formulas.keys.length) :
    ∃ waiting', graph.Walk (done ++ graph.settle steps waiting queue) waiting' [] := by
  induction steps generalizing done waiting queue with
  -- All formulas are done, and there is no place left for one in the queue.
  | zero =>
      have hsub : (done ++ queue).Subperm graph.formulas.keys :=
        List.subperm_of_subset h.nodup fun id hid => h.mem_keys hid
      have hlen := hsub.length_le
      rw [List.length_append] at hlen
      have hqueue : queue = [] := List.eq_nil_of_length_eq_zero (by omega)
      rw [hqueue] at h
      exact ⟨waiting, by rwa [DependencyGraph.settle, List.append_nil]⟩
  | succ steps ih =>
      cases queue with
      | nil => exact ⟨waiting, by rwa [DependencyGraph.settle, List.append_nil]⟩
      | cons id queue =>
          rcases ih h.step (by rw [List.length_append, List.length_singleton]; omega) with
            ⟨waiting', h'⟩
          rw [List.append_assoc, List.singleton_append] at h'
          exact ⟨waiting', h'⟩

end Walk

/-- The order of a graph is where its walk ends. -/
theorem walk_order (graph : DependencyGraph) : ∃ waiting, graph.Walk graph.order waiting [] := by
  have hsize : ([] : List String).length + graph.formulas.size = graph.formulas.keys.length := by
    rw [OrderedMap.size, OrderedMap.keys, List.length_map, List.length_nil, Nat.zero_add]
  exact (Walk.start graph).settle hsize

theorem nodup_order (graph : DependencyGraph) : graph.order.Nodup := by
  rcases graph.walk_order with ⟨waiting, h⟩
  have hnodup := h.nodup
  rwa [List.append_nil] at hnodup

/-- What a formula reads stands before it. -/
theorem mem_front_of_order {front back : List String} {id id' : String}
    (horder : graph.order = front ++ id :: back) (hedge : graph.Edge id id') : id' ∈ front := by
  rcases graph.walk_order with ⟨waiting, h⟩
  exact h.ordered front id back horder id' hedge

/-- A formula has a place in the order if all formulas that it reads have one. -/
theorem mem_order_iff {id : String} :
    id ∈ graph.order ↔
      id ∈ graph.formulas.keys ∧ ∀ id', graph.Edge id id' → id' ∈ graph.order := by
  rcases graph.walk_order with ⟨waiting, h⟩
  have hmem := h.mem_iff id
  rw [List.append_nil, remaining_eq_zero] at hmem
  rw [hmem]
  constructor
  · rintro ⟨hkey, hall⟩
    exact ⟨hkey, fun id' hedge => hall id' hedge.2.1 hedge.2.2⟩
  · rintro ⟨hkey, hall⟩
    exact ⟨hkey, fun id' hkey' hreads => hall id' ⟨hkey, hkey', hreads⟩⟩

/-- What holds of a formula whenever it holds of all formulas that it reads holds of
    all formulas in the order. -/
theorem order_induction {P : String → Prop}
    (h : ∀ id ∈ graph.order, (∀ id', graph.Edge id id' → P id') → P id) :
    ∀ id ∈ graph.order, P id := by
  have hfront : ∀ front back, graph.order = front ++ back → ∀ id ∈ front, P id := by
    intro front
    -- The induction takes the last formula off, since the ones it reads stand before it.
    induction front using List.reverseRecOn with
    | nil => exact fun back _ id hid => by cases hid
    | append_singleton front id ih =>
        intro back horder id' hid'
        rw [List.append_assoc, List.singleton_append] at horder
        rcases List.mem_append.mp hid' with hid' | hid'
        · exact ih _ horder id' hid'
        · rw [List.mem_singleton.mp hid']
          refine h id (by rw [horder]; exact List.mem_append_right _ List.mem_cons_self) ?_
          exact fun id'' hedge => ih _ horder id'' (mem_front_of_order horder hedge)
  exact hfront graph.order [] (List.append_nil _).symm

theorem mem_blocked {id : String} :
    id ∈ graph.blocked ↔ id ∈ graph.formulas.keys ∧ id ∉ graph.order := by
  rw [blocked, List.mem_filter, Bool.not_eq_true', List.contains_eq_mem, decide_eq_false_iff_not]

/-- What can be read from a formula with a place in the order has a place before
    it. -/
theorem mem_front_of_transGen {front back : List String} {id id' : String}
    (horder : graph.order = front ++ id :: back) (hpath : TransGen graph.Edge id id') :
    id' ∈ front := by
  induction hpath with
  | single hedge => exact mem_front_of_order horder hedge
  | tail _ hedge ih =>
      rcases List.append_of_mem ih with ⟨front', back', rfl⟩
      rw [List.append_assoc, List.cons_append] at horder
      exact List.mem_append_left _ (mem_front_of_order horder hedge)

theorem not_transGen_of_mem_order {id : String} (hid : id ∈ graph.order) :
    ¬ TransGen graph.Edge id id := by
  intro hpath
  rcases List.append_of_mem hid with ⟨front, back, horder⟩
  have hnodup := graph.nodup_order
  rw [horder] at hnodup
  exact (List.nodup_append.mp hnodup).2.2 id (mem_front_of_transGen horder hpath) id
    List.mem_cons_self rfl

theorem not_reachesCycle_of_mem_order {id : String} (hid : id ∈ graph.order) :
    ¬ graph.ReachesCycle id := by
  rintro ⟨id', hpath, hcycle⟩
  have hid' : id' ∈ graph.order := by
    clear hcycle
    induction hpath with
    | refl => exact hid
    | tail _ hedge ih => exact (mem_order_iff.mp ih).2 _ hedge
  exact not_transGen_of_mem_order hid' hcycle

/-- Formulas that reach no cycle have a place in the order. -/
theorem mem_order_of_not_reachesCycle {id : String} (hid : id ∈ graph.formulas.keys)
    (hcycle : ¬ graph.ReachesCycle id) : id ∈ graph.order := by
  -- The formulas below this one are finitely many, and none of them reads its way to
  -- itself. So reading is well-founded there, and they get their places from below.
  let Below := {id' : String // id' ∈ graph.formulas.keys ∧ ReflTransGen graph.Edge id id'}
  let before : Below → Below → Prop := fun a b => TransGen graph.Edge b.1 a.1
  have hfinite : Finite Below :=
    Finite.of_injective (fun a => (⟨a.1, a.2.1⟩ : {id' : String // id' ∈ graph.formulas.keys}))
      fun a b h => Subtype.ext (Subtype.mk.inj h)
  have htrans : IsTrans Below before := ⟨fun a b c hab hbc => hbc.trans hab⟩
  have hirrefl : Std.Irrefl before := ⟨fun a ha => hcycle ⟨a.1, a.2.2, ha⟩⟩
  have hwf : WellFounded before := Finite.wellFounded_of_trans_of_irrefl before
  have hbelow : ∀ a : Below, a.1 ∈ graph.order := by
    intro a
    induction a using hwf.induction with
    | _ a ih =>
        refine mem_order_iff.mpr ⟨a.2.1, fun id' hedge => ?_⟩
        exact ih ⟨id', hedge.2.1, a.2.2.tail hedge⟩ (TransGen.single hedge)
  exact hbelow ⟨id, hid, ReflTransGen.refl⟩

/-- The formulas in the order are those that reach no cycle. -/
theorem mem_order_iff_not_reachesCycle {id : String} :
    id ∈ graph.order ↔ id ∈ graph.formulas.keys ∧ ¬ graph.ReachesCycle id :=
  ⟨fun hid => ⟨(mem_order_iff.mp hid).1, not_reachesCycle_of_mem_order hid⟩,
    fun h => mem_order_of_not_reachesCycle h.1 h.2⟩

/-- The blocked formulas are those that reach a cycle. -/
theorem mem_blocked_iff {id : String} :
    id ∈ graph.blocked ↔ id ∈ graph.formulas.keys ∧ graph.ReachesCycle id := by
  rw [mem_blocked]
  refine and_congr_right fun hid => ⟨fun horder => ?_, fun hcycle horder => ?_⟩
  · by_contra hcycle
    exact horder (mem_order_of_not_reachesCycle hid hcycle)
  · exact not_reachesCycle_of_mem_order horder hcycle

end DependencyGraph

end Spreadsheet
