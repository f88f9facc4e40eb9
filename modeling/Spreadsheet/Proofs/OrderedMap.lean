import Spreadsheet.OrderedMap
import Mathlib.Data.List.Induction

/-!
# Look-ups and Entries

How the look-ups of an ordered map relate to its list of entries.

Since no key occurs twice, a look-up finds the only entry of its key, and two maps
with the same entries in different orders answer alike. What order does decide is
where a key stands, and a new one always goes to the end.

## Theorems

* `get?_eq_some_iff`: A look-up finds the entry of the key.
* `ext_get?`: A map is told by its keys and its look-ups.
* `get?_eq_of_perm`: The order of the entries does not matter for look-ups.
* `entries_insert_of_not_mem`: A new key goes to the end.
* `get?_ofList`: The map of a list has the last value of each key.
* `mem_of_get?_ofList`: What a list does not hold is not found in its map.
* `mem_keys_ofList`: The keys of a list are those of its map.
-/

namespace Spreadsheet

namespace OrderedMap

variable {κ α : Type} [DecidableEq κ]

/-- What a look-up finds is the entry of the key. -/
theorem get?_eq_some_iff (m : OrderedMap κ α) {k : κ} {v : α} :
    m.get? k = some v ↔ (k, v) ∈ m.entries := by
  have hnodup := m.nodup_keys
  rw [get?]
  -- No key comes twice, so an entry is the first one of its key.
  generalize m.entries = entries at hnodup
  induction entries with
  | nil => simp
  | cons e entries ih =>
      rw [List.map_cons, List.nodup_cons] at hnodup
      rw [lookup_cons_eq_ite, List.mem_cons]
      by_cases hk : k = e.1
      · rw [if_pos hk]
        constructor
        · intro h
          exact Or.inl (Prod.ext hk (Option.some.inj h).symm)
        · rintro (h | h)
          · rw [← h]
          · exact absurd (List.mem_map.mpr ⟨_, h, hk⟩) hnodup.1
      · rw [if_neg hk]
        refine (ih hnodup.2).trans ⟨Or.inr, fun h => ?_⟩
        rcases h with h | h
        · exact absurd (congrArg Prod.fst h) hk
        · exact h

theorem mem_keys_iff (m : OrderedMap κ α) {k : κ} : k ∈ m.keys ↔ ∃ v, m.get? k = some v := by
  rw [← contains_iff_mem_keys, contains, Option.isSome_iff_exists]

/-- A new key goes to the end. -/
theorem entries_insert_of_not_mem (m : OrderedMap κ α) {k : κ} (v : α) (h : k ∉ m.keys) :
    (m.insert k v).entries = m.entries ++ [(k, v)] := by
  rw [keys] at h
  show insertEntry k v m.entries = m.entries ++ [(k, v)]
  generalize m.entries = entries at h
  induction entries with
  | nil => rfl
  | cons e entries ih =>
      rw [List.map_cons, List.mem_cons, not_or] at h
      rw [insertEntry, if_neg (Ne.symm h.1), ih h.2, List.cons_append]

/-- A map is told by its keys and its look-ups. -/
theorem ext_get? {m m' : OrderedMap κ α} (hkeys : m.keys = m'.keys)
    (hget : ∀ k, m.get? k = m'.get? k) : m = m' := by
  -- An entry is the value that a look-up finds, put beside its key.
  have hentries : ∀ m : OrderedMap κ α,
      m.entries.map (fun e => (e.1, some e.2)) = m.keys.map fun k => (k, m.get? k) := by
    intro m
    rw [keys, List.map_map]
    refine List.map_congr_left fun e he => ?_
    rw [Function.comp_apply, (get?_eq_some_iff m).mpr he]
  have hsame := hentries m
  rw [hkeys, funext hget, ← hentries m'] at hsame
  have hinjective : ∀ e e' : κ × α, (e.1, some e.2) = (e'.1, some e'.2) → e = e' := by
    intro e e' h
    rw [Prod.mk.injEq, Option.some.injEq] at h
    exact Prod.ext h.1 h.2
  cases m
  cases m'
  congr
  exact (List.map_inj_right hinjective).mp hsame

theorem get?_eq_of_perm {m m' : OrderedMap κ α} (h : m.entries.Perm m'.entries) (k : κ) :
    m.get? k = m'.get? k := by
  ext v
  rw [get?_eq_some_iff, get?_eq_some_iff, h.mem_iff]

theorem get?_insert (m : OrderedMap κ α) (k k' : κ) (v : α) :
    (m.insert k v).get? k' = if k' = k then some v else m.get? k' := by
  split
  · rename_i hk
    rw [hk, get?_insert_self]
  · rename_i hk
    exact get?_insert_of_ne m v hk

/-- The last value of a key in a list is the new one, if the key comes once more. -/
theorem lookup_reverse_concat (es : List (κ × α)) (e : κ × α) (k : κ) :
    (es ++ [e]).reverse.lookup k = if k = e.1 then some e.2 else es.reverse.lookup k := by
  rw [List.reverse_append, List.reverse_singleton, List.singleton_append, lookup_cons_eq_ite]

theorem mem_of_lookup_reverse {es : List (κ × α)} {k : κ} {v : α}
    (h : es.reverse.lookup k = some v) : (k, v) ∈ es := by
  rcases List.lookup_eq_some_iff.mp h with ⟨after, before, heq, _⟩
  rw [← List.mem_reverse, heq]
  exact List.mem_append_right _ List.mem_cons_self

theorem ofList_concat (es : List (κ × α)) (e : κ × α) :
    ofList (es ++ [e]) = (ofList es).insert e.1 e.2 := by
  rw [ofList, List.foldl_append]
  rfl

/-- What a look-up finds in the map of a list is the last value of the key. -/
theorem get?_ofList (es : List (κ × α)) (k : κ) : (ofList es).get? k = es.reverse.lookup k := by
  induction es using List.reverseRecOn with
  | nil => rfl
  | append_singleton es e ih => rw [ofList_concat, get?_insert, ih, lookup_reverse_concat]

/-- What is found in the map of a list is one of the entries. -/
theorem mem_of_get?_ofList {es : List (κ × α)} {k : κ} {v : α} (h : (ofList es).get? k = some v) :
    (k, v) ∈ es :=
  mem_of_lookup_reverse ((get?_ofList es k).symm.trans h)

theorem mem_keys_insert (m : OrderedMap κ α) {k k' : κ} (v : α) :
    k' ∈ (m.insert k v).keys ↔ k' = k ∨ k' ∈ m.keys := by
  rw [keys_insert]
  split
  · rename_i hk
    exact ⟨Or.inr, fun h => h.elim (fun heq => by rwa [heq]) id⟩
  · rw [List.mem_append, List.mem_singleton, or_comm]

/-- The keys of a list are those of its map. -/
theorem mem_keys_ofList {es : List (κ × α)} {k : κ} :
    k ∈ (ofList es).keys ↔ k ∈ es.map Prod.fst := by
  induction es using List.reverseRecOn with
  | nil => exact Iff.rfl
  | append_singleton es e ih =>
      rw [ofList_concat, mem_keys_insert, ih, List.map_append, List.mem_append, List.map_singleton,
        List.mem_singleton, or_comm]

end OrderedMap

end Spreadsheet
