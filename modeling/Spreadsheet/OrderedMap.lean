/-!
# Ordered Maps

Finite maps that remember the order in which their keys first arrived.

The order shows: cells are listed, exported and evaluated in the order in which
they were entered, where nothing else decides. Writing to a key that is present
keeps its place; a key that is removed and written again goes to the end. The
entries are a list, and that no key occurs twice is part of the type, so that
what a look-up finds is the only entry of its key.

## Main definitions

* `OrderedMap`: A list of entries whose keys are distinct.
* `OrderedMap.get?`: The value of a key, the view in which operations are
  described.
* `OrderedMap.insert`, `OrderedMap.erase`, `OrderedMap.mapValues`: The
  operations.

## Theorems

* `get?_insert_self`, `get?_insert_of_ne`: Writing changes one key.
* `get?_erase_self`, `get?_erase_of_ne`: Erasing removes one key.
* `get?_mapValues`: Changing values acts on each key by itself.
* `keys_insert`: Writing keeps the keys, or adds one at the end.
* `keys_erase`, `keys_mapValues`: The keys after the other operations.
* `contains_iff_mem_keys`, `get?_eq_none_iff`: Which keys have a value.
-/

namespace Spreadsheet

/-- A finite map with its entries in the order in which the keys arrived. -/
structure OrderedMap (κ α : Type) where
  entries : List (κ × α)
  nodup_keys : (entries.map Prod.fst).Nodup

namespace OrderedMap

variable {κ α β : Type}

/-- The map without entries. -/
def empty : OrderedMap κ α := ⟨[], List.nodup_nil⟩

instance : EmptyCollection (OrderedMap κ α) := ⟨empty⟩

instance : Inhabited (OrderedMap κ α) := ⟨empty⟩

/-- The keys, in the order in which they arrived. -/
def keys (m : OrderedMap κ α) : List κ := m.entries.map Prod.fst

/-- The number of entries. -/
def size (m : OrderedMap κ α) : Nat := m.entries.length

/-- The same map with other values. -/
def mapValues (f : κ → α → β) (m : OrderedMap κ α) : OrderedMap κ β where
  entries := m.entries.map fun e => (e.1, f e.1 e.2)
  nodup_keys := by
    have h := m.nodup_keys
    rwa [List.map_map, show Prod.fst ∘ (fun e : κ × α => (e.1, f e.1 e.2)) = Prod.fst from rfl]

theorem keys_mapValues (f : κ → α → β) (m : OrderedMap κ α) : (m.mapValues f).keys = m.keys := by
  simp [keys, mapValues, Function.comp_def]

variable [DecidableEq κ]

/-- The value of a key. -/
def get? (m : OrderedMap κ α) (k : κ) : Option α := m.entries.lookup k

/-- Whether a key has a value. -/
def contains (m : OrderedMap κ α) (k : κ) : Bool := (m.get? k).isSome

/-- The entries after a key is written. -/
def insertEntry (k : κ) (v : α) : List (κ × α) → List (κ × α)
  | [] => [(k, v)]
  | e :: rest => if e.1 = k then (k, v) :: rest else e :: insertEntry k v rest

theorem map_fst_insertEntry (k : κ) (v : α) (es : List (κ × α)) :
    (insertEntry k v es).map Prod.fst =
      if k ∈ es.map Prod.fst then es.map Prod.fst else es.map Prod.fst ++ [k] := by
  induction es with
  | nil => simp [insertEntry]
  | cons e rest ih =>
    by_cases h : e.1 = k
    · simp [insertEntry, h]
    · -- Behind another key, the rest decides whether there is one more.
      have h' : ¬ k = e.1 := fun eq => h eq.symm
      by_cases mem : k ∈ rest.map Prod.fst
      · have mem' : k ∈ (e :: rest).map Prod.fst := List.mem_cons_of_mem _ mem
        rw [if_pos mem']
        rw [if_pos mem] at ih
        simp only [insertEntry, h, if_false, List.map_cons, ih]
      · have mem' : ¬ k ∈ (e :: rest).map Prod.fst := by
          simp only [List.map_cons, List.mem_cons, not_or]
          exact ⟨h', mem⟩
        rw [if_neg mem']
        rw [if_neg mem] at ih
        simp only [insertEntry, h, if_false, List.map_cons, ih, List.cons_append]

/-- The map with a value written to a key. A key that is present keeps its place;
    a new one goes to the end. -/
def insert (m : OrderedMap κ α) (k : κ) (v : α) : OrderedMap κ α where
  entries := insertEntry k v m.entries
  nodup_keys := by
    rw [map_fst_insertEntry]
    split
    · exact m.nodup_keys
    · next mem =>
      rw [List.nodup_append]
      refine ⟨m.nodup_keys, by simp, ?_⟩
      intro a ha b hb eq
      rw [List.mem_singleton.1 hb] at eq
      exact mem (eq ▸ ha)

/-- The map without a key. -/
def erase (m : OrderedMap κ α) (k : κ) : OrderedMap κ α where
  entries := m.entries.filter fun e => e.1 ≠ k
  nodup_keys := m.nodup_keys.sublist ((List.filter_sublist).map Prod.fst)

/-- The map of a list of entries: of two with one key, the first gives the place
    and the last the value. -/
def ofList (es : List (κ × α)) : OrderedMap κ α :=
  es.foldl (fun m e => m.insert e.1 e.2) empty

theorem keys_insert (m : OrderedMap κ α) (k : κ) (v : α) :
    (m.insert k v).keys = if k ∈ m.keys then m.keys else m.keys ++ [k] :=
  map_fst_insertEntry k v m.entries

theorem keys_erase (m : OrderedMap κ α) (k : κ) :
    (m.erase k).keys = m.keys.filter fun a => a ≠ k := by
  simp only [keys, erase, List.filter_map]
  rfl

/-- The first entry is found under its own key, and passed over under any other. -/
theorem lookup_cons_eq_ite (e : κ × α) (rest : List (κ × α)) (k : κ) :
    (e :: rest).lookup k = if k = e.1 then some e.2 else rest.lookup k := by
  show ((e.1, e.2) :: rest).lookup k = _
  rw [List.lookup_cons]
  by_cases hk : k = e.1
  · rw [if_pos hk, beq_iff_eq.mpr hk]
  · rw [if_neg hk, beq_false_of_ne hk]

theorem get?_insert_self (m : OrderedMap κ α) (k : κ) (v : α) : (m.insert k v).get? k = some v := by
  simp only [get?, insert]
  induction m.entries with
  | nil => exact List.lookup_cons_self
  | cons e rest ih =>
    by_cases he : e.1 = k
    · rw [insertEntry, if_pos he]
      exact List.lookup_cons_self
    · rw [insertEntry, if_neg he, lookup_cons_eq_ite, if_neg (Ne.symm he), ih]

theorem get?_insert_of_ne (m : OrderedMap κ α) {k k' : κ} (v : α) (h : k' ≠ k) :
    (m.insert k v).get? k' = m.get? k' := by
  simp only [get?, insert]
  induction m.entries with
  | nil => exact (lookup_cons_eq_ite (k, v) [] k').trans (if_neg h)
  | cons e rest ih =>
    by_cases he : e.1 = k
    · rw [insertEntry, if_pos he, lookup_cons_eq_ite, lookup_cons_eq_ite, if_neg h,
        if_neg (he ▸ h)]
    · rw [insertEntry, if_neg he, lookup_cons_eq_ite, lookup_cons_eq_ite, ih]

theorem get?_erase_self (m : OrderedMap κ α) (k : κ) : (m.erase k).get? k = none := by
  simp only [get?, erase]
  induction m.entries with
  | nil => rfl
  | cons e rest ih =>
    by_cases he : e.1 = k
    · rw [List.filter_cons_of_neg (by simpa using he), ih]
    · rw [List.filter_cons_of_pos (by simpa using he), lookup_cons_eq_ite, if_neg (Ne.symm he), ih]

theorem get?_erase_of_ne (m : OrderedMap κ α) {k k' : κ} (h : k' ≠ k) :
    (m.erase k).get? k' = m.get? k' := by
  simp only [get?, erase]
  induction m.entries with
  | nil => rfl
  | cons e rest ih =>
    rw [lookup_cons_eq_ite]
    by_cases he : e.1 = k
    · rw [List.filter_cons_of_neg (by simpa using he), if_neg (he ▸ h), ih]
    · rw [List.filter_cons_of_pos (by simpa using he), lookup_cons_eq_ite, ih]

theorem get?_mapValues (f : κ → α → β) (m : OrderedMap κ α) (k : κ) :
    (m.mapValues f).get? k = (m.get? k).map (f k) := by
  simp only [get?, mapValues]
  induction m.entries with
  | nil => rfl
  | cons e rest ih =>
    rw [List.map_cons, lookup_cons_eq_ite, lookup_cons_eq_ite, ih]
    by_cases he : k = e.1
    · rw [if_pos he, if_pos he, he, Option.map_some]
    · rw [if_neg he, if_neg he]

theorem get?_eq_none_iff (m : OrderedMap κ α) (k : κ) : m.get? k = none ↔ k ∉ m.keys := by
  simp only [get?, keys]
  induction m.entries with
  | nil => simp
  | cons e rest ih =>
    rw [List.map_cons, List.mem_cons, not_or, lookup_cons_eq_ite]
    by_cases he : k = e.1
    · rw [if_pos he]
      exact iff_of_false (Option.some_ne_none _) fun hne => hne.1 he
    · rw [if_neg he, ih]
      exact (and_iff_right he).symm

theorem contains_iff_mem_keys (m : OrderedMap κ α) (k : κ) : m.contains k = true ↔ k ∈ m.keys := by
  rw [contains, Option.isSome_iff_ne_none, ne_eq, get?_eq_none_iff, Decidable.not_not]

end OrderedMap

end Spreadsheet
