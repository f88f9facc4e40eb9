import Spreadsheet.Proofs.Address.Codec
import Spreadsheet.Sheet
import Mathlib.Data.List.Nodup

/-!
# The Cells of a Block

Both ways of looking up the values in a block give the same list.

One way writes the names of the block row by row and keeps those that are
present; the other goes through the cells that are present, keeps the canonical
names whose addresses lie in the block and sorts them. The first list is in
strict row-major order because it is written so, the second because it is sorted.
They have the same members, and a list without repetitions is determined by its
members and its order. So the values depend only on what each name of the block
holds, and not on how many cells there are elsewhere or how they came to be.

Blocks that texts name lie on the grid. Off the grid, different addresses would
be written with one name, and the argument needs the names to be canonical.

## Main definitions

* `Block.OnGrid`: A block without negative rows and columns.
* `Block.named`: The addresses of a block with their names.

## Theorems

* `Block.exists_of_ofChars`: What a text that names a block looks like.
* `Block.mem_addresses`: The addresses of a block are those that it contains.
* `Block.mem_ids`: The names of a block are the canonical ones in it.
* `Cells.valuesByCell_eq`: Both ways give the same list.
* `Cells.valuesIn_eq`: The values in a block, name by name.
-/

namespace Spreadsheet

namespace Block

/-- A block without negative rows and columns. -/
def OnGrid (block : Block) : Prop := 0 ≤ block.top ∧ 0 ≤ block.left

theorem ofId?_of_ofId {id : String} {a : Address} (h : Address.ofId id = .ok a) :
    Address.ofId? id = some a := by
  rw [Address.ofId] at h
  split at h
  · rename_i a' ha'
    rw [← Except.ok.inj h]
    exact ha'
  · cases h

/-- A text that names a block is two names with a colon between them, and blanks
    around the names. -/
theorem exists_of_ofChars {cs : List Char} {block : Block} (h : ofChars cs = .ok block) :
    ∃ first second a b, cs = first ++ ':' :: second ∧ ':' ∉ first ∧ ':' ∉ second ∧
      Address.ofId? (String.ofList (Text.trim first)) = some a ∧
      Address.ofId? (String.ofList (Text.trim second)) = some b ∧ block = spanning a b := by
  -- The reader splits the text at its first colon.
  rcases Text.exists_stop (· != ':') cs with ⟨first, rest, rfl, hfirst, hrest⟩
  have hcolon : ':' ∉ first := fun hm => absurd (hfirst _ hm) (by decide)
  rw [ofChars] at h
  simp only [(Text.span_of_stop hfirst hrest).1, (Text.span_of_stop hfirst hrest).2] at h
  split at h
  · cases h
  · rename_i c second
    have hc : c = ':' := by
      have := hrest c rfl
      rwa [bne_eq_false_iff_eq] at this
    split at h
    · cases h
    · rename_i hsecond
      rw [List.contains_iff_mem] at hsecond
      cases ha : Address.ofId (String.ofList (Text.trim first)) with
      | error e =>
          rw [ha] at h
          cases h
      | ok a =>
          cases hb : Address.ofId (String.ofList (Text.trim second)) with
          | error e =>
              rw [ha, hb] at h
              cases h
          | ok b =>
              rw [ha, hb] at h
              exact ⟨first, second, a, b, by rw [hc], hcolon, hsecond, ofId?_of_ofId ha,
                ofId?_of_ofId hb, (Except.ok.inj h).symm⟩

theorem onGrid_of_ofChars {cs : List Char} {block : Block} (h : ofChars cs = .ok block) :
    block.OnGrid := by
  rcases exists_of_ofChars h with ⟨_, _, a, b, _, _, _, ha, hb, rfl⟩
  have hfirst := Address.nonneg_of_ofId? ha
  have hsecond := Address.nonneg_of_ofId? hb
  rw [OnGrid, spanning]
  simp only
  omega

theorem left_mem_spanning (a b : Address) : a ∈ spanning a b := by
  show (min a.row b.row ≤ a.row ∧ a.row ≤ max a.row b.row) ∧
    (min a.col b.col ≤ a.col ∧ a.col ≤ max a.col b.col)
  omega

theorem right_mem_spanning (a b : Address) : b ∈ spanning a b := by
  show (min a.row b.row ≤ b.row ∧ b.row ≤ max a.row b.row) ∧
    (min a.col b.col ≤ b.col ∧ b.col ≤ max a.col b.col)
  omega

theorem mem_iff {a : Address} {block : Block} :
    a ∈ block ↔ (block.top ≤ a.row ∧ a.row ≤ block.bottom) ∧
      (block.left ≤ a.col ∧ a.col ≤ block.right) := Iff.rfl

/-- The addresses of a block are those that it contains. -/
theorem mem_addresses {a : Address} {block : Block} : a ∈ block.addresses ↔ a ∈ block := by
  have htop := block.top_le_bottom
  have hleft := block.left_le_right
  rw [mem_iff]
  constructor
  · intro h
    rcases List.mem_flatMap.mp h with ⟨i, hi, ha⟩
    rcases List.mem_map.mp ha with ⟨j, hj, rfl⟩
    rw [List.mem_range, rows] at hi
    rw [List.mem_range, cols] at hj
    simp only
    omega
  · intro h
    -- The offsets from the top left corner lead to the address.
    refine List.mem_flatMap.mpr ⟨(a.row - block.top).toNat, ?_, List.mem_map.mpr
      ⟨(a.col - block.left).toNat, ?_, ?_⟩⟩
    · rw [List.mem_range, rows]
      omega
    · rw [List.mem_range, cols]
      omega
    · rcases a with ⟨row, col⟩
      simp only [Address.mk.injEq] at h ⊢
      omega

/-- The addresses of a block come row by row, and each row from left to right. -/
theorem pairwise_addresses (block : Block) :
    block.addresses.Pairwise fun a b => a.row < b.row ∨ a.row = b.row ∧ a.col < b.col := by
  rw [addresses, List.pairwise_flatMap]
  constructor
  · intro i _
    rw [List.pairwise_map]
    refine List.pairwise_lt_range.imp fun hlt => Or.inr ⟨rfl, ?_⟩
    simp only
    omega
  · refine List.pairwise_lt_range.imp fun hlt a ha b hb => Or.inl ?_
    rcases List.mem_map.mp ha with ⟨_, _, rfl⟩
    rcases List.mem_map.mp hb with ⟨_, _, rfl⟩
    simp only
    omega

/-- The addresses of a block with their names. -/
def named (block : Block) : List (String × Address) :=
  block.addresses.map fun a => (Address.cellId a.row.toNat a.col.toNat, a)

theorem map_fst_named (block : Block) : block.named.map Prod.fst = block.ids := by
  rw [named, List.map_map]
  rfl

/-- On the grid, the names of a block are canonical and denote its addresses. -/
theorem mem_named {block : Block} (hgrid : block.OnGrid) {p : String × Address} :
    p ∈ block.named ↔ Address.IsCanonical p.1 ∧ Address.ofId? p.1 = some p.2 ∧ p.2 ∈ block := by
  rcases p with ⟨id, a⟩
  constructor
  · intro h
    rcases List.mem_map.mp h with ⟨b, hb, heq⟩
    rw [Prod.mk.injEq] at heq
    rcases heq with ⟨rfl, rfl⟩
    have hmem := mem_addresses.mp hb
    rw [mem_iff] at hmem
    refine ⟨Address.isCanonical_cellId _ _, ?_, mem_addresses.mp hb⟩
    rw [Address.ofId?_cellId, Option.some.injEq, Address.mk.injEq]
    have := hgrid.1
    have := hgrid.2
    omega
  · rintro ⟨hcanonical, ha, hmem⟩
    refine List.mem_map.mpr ⟨a, mem_addresses.mpr hmem, ?_⟩
    rw [← Address.eq_cellId_of_isCanonical hcanonical ha]

/-- On the grid, the names of a block are the canonical ones of its addresses. -/
theorem mem_ids {block : Block} (hgrid : block.OnGrid) {id : String} :
    id ∈ block.ids ↔
      Address.IsCanonical id ∧ ∃ a, Address.ofId? id = some a ∧ a ∈ block := by
  rw [← map_fst_named, List.mem_map]
  constructor
  · rintro ⟨p, hp, rfl⟩
    have h := (mem_named hgrid).mp hp
    exact ⟨h.1, p.2, h.2⟩
  · rintro ⟨hcanonical, a, ha⟩
    exact ⟨(id, a), (mem_named hgrid).mpr ⟨hcanonical, ha⟩, rfl⟩

end Block

namespace Cells

variable (cells : Cells) {block : Block}

/-- The reachable cells are those with a canonical name. -/
theorem mem_reachable {p : String × Address} :
    p ∈ cells.reachable ↔
      Address.IsCanonical p.1 ∧ Address.ofId? p.1 = some p.2 ∧ cells.contains p.1 = true := by
  rw [reachable, List.mem_filter, located, List.mem_filterMap, decide_eq_true_eq]
  constructor
  · rintro ⟨⟨id, hid, hmap⟩, hcanonical⟩
    rw [Option.map_eq_some_iff] at hmap
    rcases hmap with ⟨a, ha, rfl⟩
    exact ⟨hcanonical, ha, (OrderedMap.contains_iff_mem_keys cells id).mpr hid⟩
  · rintro ⟨hcanonical, ha, hid⟩
    refine ⟨⟨p.1, (OrderedMap.contains_iff_mem_keys cells p.1).mp hid, ?_⟩, hcanonical⟩
    rw [ha]
    rfl

theorem nodup_reachable : cells.reachable.Nodup := by
  refine List.Nodup.filter _ (List.Nodup.filterMap ?_ cells.nodup_keys)
  intro id id' p hp hp'
  rw [Option.mem_def, Option.map_eq_some_iff] at hp hp'
  rcases hp with ⟨a, _, rfl⟩
  rcases hp' with ⟨b, _, heq⟩
  exact (Prod.mk.inj heq).1.symm

/-- The order of a listing is that of a sort. -/
theorem rowMajor_trans {a b c : Address} (h : rowMajor a b = true) (h' : rowMajor b c = true) :
    rowMajor a c = true := by
  simp only [rowMajor, decide_eq_true_eq] at h h' ⊢
  omega

theorem rowMajor_total (a b : Address) : (rowMajor a b || rowMajor b a) = true := by
  simp only [rowMajor, Bool.or_eq_true, decide_eq_true_eq]
  omega

theorem rowMajor_antisymm {a b : Address} (h : rowMajor a b = true) (h' : rowMajor b a = true) :
    a = b := by
  simp only [rowMajor, decide_eq_true_eq] at h h'
  rw [Address.mk.injEq]
  omega

theorem rowMajor_of_lt {a b : Address} (h : a.row < b.row ∨ a.row = b.row ∧ a.col < b.col) :
    rowMajor a b = true := by
  rw [rowMajor, decide_eq_true_eq]
  omega

/-- The cells present in a block, found in either way, are one list. -/
theorem mergeSort_reachable (hgrid : block.OnGrid) :
    ((cells.reachable.filter fun (_, a) => a ∈ block).mergeSort fun p q => rowMajor p.2 q.2)
      = block.named.filter fun p => cells.contains p.1 := by
  have hmem : ∀ p, p ∈ (cells.reachable.filter fun (_, a) => a ∈ block) ↔
      p ∈ block.named.filter fun p => cells.contains p.1 := by
    intro p
    rw [List.mem_filter, List.mem_filter, mem_reachable, Block.mem_named hgrid, decide_eq_true_eq]
    tauto
  -- Both lists have the same members and are sorted, so they are one list.
  have hstrict : (block.named.filter fun p => cells.contains p.1).Pairwise fun p q =>
      p.2.row < q.2.row ∨ p.2.row = q.2.row ∧ p.2.col < q.2.col :=
    ((List.pairwise_map.mpr block.pairwise_addresses).filter _)
  have hnodup : (block.named.filter fun p => cells.contains p.1).Nodup :=
    hstrict.imp fun hlt heq => by
      rw [heq] at hlt
      omega
  have hperm := (List.mergeSort_perm _ fun p q => rowMajor p.2 q.2).trans
    ((List.perm_ext_iff_of_nodup (cells.nodup_reachable.filter _) hnodup).mpr hmem)
  have hsorted := @List.pairwise_mergeSort (String × Address) (fun p q => rowMajor p.2 q.2)
    (fun _ _ _ => rowMajor_trans) (fun _ _ => rowMajor_total _ _)
    (cells.reachable.filter fun (_, a) => a ∈ block)
  refine hperm.eq_of_pairwise ?_ hsorted (hstrict.imp rowMajor_of_lt)
  -- Of two names for one address, at most one is canonical.
  intro p q hp hq hpq hqp
  have hp' := (Block.mem_named hgrid).mp (List.mem_filter.mp (hperm.mem_iff.mp hp)).1
  have hq' := (Block.mem_named hgrid).mp (List.mem_filter.mp hq).1
  have haddress := rowMajor_antisymm hpq hqp
  exact Prod.ext (Address.eq_of_isCanonical hp'.1 hq'.1 hp'.2.1 (haddress ▸ hq'.2.1)) haddress

/-- Both ways of looking up the values in a block give the same list. -/
theorem valuesByCell_eq (hgrid : block.OnGrid) :
    cells.valuesByCell block = cells.valuesByName block := by
  rw [valuesByCell, mergeSort_reachable cells hgrid, valuesByName, ← Block.map_fst_named,
    List.filterMap_map]
  -- Both lists run over the names, and drop those that are absent.
  induction block.named with
  | nil => rfl
  | cons p rest ih =>
      cases hget : cells.get? p.1 with
      | none =>
          rw [List.filter_cons_of_neg, ih, List.filterMap_cons_none]
          · rw [Function.comp_apply, hget]
            rfl
          · rw [OrderedMap.contains, hget]
            decide
      | some c =>
          rw [List.filter_cons_of_pos, List.map_cons, ih,
            List.filterMap_cons_some (b := c.currentValue)]
          · show cells.valueAt p.1 :: _ = _
            rw [valueAt, hget]
            rfl
          · rw [Function.comp_apply, hget]
            rfl
          · rw [OrderedMap.contains, hget]
            rfl

/-- The values in a block are those of its names, as far as they are present. -/
theorem valuesIn_eq (hgrid : block.OnGrid) :
    cells.valuesIn block = block.ids.filterMap fun id => (cells.get? id).map Cell.currentValue := by
  rw [valuesIn]
  split
  · rfl
  · exact valuesByCell_eq cells hgrid

end Cells

end Spreadsheet
