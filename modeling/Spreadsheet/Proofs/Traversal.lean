import Mathlib.Data.List.Forall2

/-!
# Traversals

What a list of computations comes to, each of which may have no result.

Going through a list has a result exactly if each item has one, and then there is
one result for each item, in the order of the items. `List.Forall₂` says this of a
whole list at once, for the two ways in which a result can be missing here: a value
that is not there (`mapM_eq_some_iff`) and an error (`forall₂_of_mapM`). What is known
about the items and their results one by one follows from that, without another walk
through the list.

## Theorems

* `exists_mem_left`, `exists_mem_right`: Items and results have partners.
* `mapM_eq_some_iff`, `forall₂_of_mapM`: Results stand beside their items.
* `mapM_of_some`: Only what the items come to matters.
* `exists_mapM_of_forall`: There is a result if each item has one.
* `exists_of_mapM_error`: An error is that of an item.
-/

namespace Spreadsheet

section Pairs

variable {α β : Type} {r : α → β → Prop} {as : List α} {bs : List β}

/-- Each item on the left has a partner. -/
theorem exists_mem_right (h : List.Forall₂ r as bs) {a : α} (ha : a ∈ as) : ∃ b ∈ bs, r a b := by
  induction h with
  | nil => cases ha
  | cons hab _ ih =>
      rcases List.mem_cons.mp ha with rfl | ha
      · exact ⟨_, List.mem_cons_self, hab⟩
      · rcases ih ha with ⟨b, hb, hr⟩
        exact ⟨b, List.mem_cons_of_mem _ hb, hr⟩

/-- Each item on the right has a partner. -/
theorem exists_mem_left (h : List.Forall₂ r as bs) {b : β} (hb : b ∈ bs) : ∃ a ∈ as, r a b :=
  exists_mem_right h.flip hb

end Pairs

section Missing

variable {α β : Type} {f g : α → Option β} {as : List α} {bs : List β}

/-- A list has results exactly if they stand beside its items, one for each. -/
theorem mapM_eq_some_iff : as.mapM f = some bs ↔ List.Forall₂ (fun a b => f a = some b) as bs := by
  induction as generalizing bs with
  | nil =>
      rw [List.mapM_nil, List.forall₂_nil_left_iff]
      exact Option.some_inj.trans eq_comm
  | cons a as ih =>
      rw [List.mapM_cons, List.forall₂_cons_left_iff]
      constructor
      · intro h
        rcases Option.bind_eq_some_iff.mp h with ⟨b, hb, h⟩
        rcases Option.bind_eq_some_iff.mp h with ⟨bs', hbs', h⟩
        exact ⟨b, bs', hb, ih.mp hbs', (Option.some.inj h).symm⟩
      · rintro ⟨b, bs', hb, hbs', rfl⟩
        rw [hb, ih.mpr hbs']
        rfl

/-- If each item has a result, so has the list. -/
theorem exists_mapM_of_forall (h : ∀ a ∈ as, ∃ b, f a = some b) : ∃ bs, as.mapM f = some bs := by
  induction as with
  | nil => exact ⟨[], rfl⟩
  | cons a as ih =>
      rcases h a List.mem_cons_self with ⟨b, hb⟩
      rcases ih fun a' ha' => h a' (List.mem_cons_of_mem a ha') with ⟨bs, hbs⟩
      exact ⟨b :: bs, mapM_eq_some_iff.mpr (.cons hb (mapM_eq_some_iff.mp hbs))⟩

/-- If every item that has a result has it in another way too, so has the list. -/
theorem mapM_of_some (h : as.mapM f = some bs) (hfg : ∀ a ∈ as, ∀ b, f a = some b → g a = some b) :
    as.mapM g = some bs :=
  mapM_eq_some_iff.mpr
    (((List.forall₂_and_left _ _).mpr ⟨hfg, mapM_eq_some_iff.mp h⟩).imp
      fun _ b hab => hab.1 b hab.2)

/-- A list of things that are told by their texts has the results of the texts. -/
theorem mapM_map_of_some {γ : Type} {text : γ → α} {value : γ → β} {cs : List γ}
    (h : ∀ c ∈ cs, f (text c) = some (value c)) :
    (cs.map text).mapM f = some (cs.map value) := by
  rw [mapM_eq_some_iff, List.forall₂_map_left_iff, List.forall₂_map_right_iff, List.forall₂_same]
  exact h

end Missing

section Failing

variable {α β ε : Type} {f : α → Except ε β} {as : List α}

/-- Two computations of which the second takes the result of the first come to a
    result only if both do. -/
theorem exists_of_bind {x : Except ε α} {b : β} (h : x >>= f = .ok b) :
    ∃ a, x = .ok a ∧ f a = .ok b := by
  cases x with
  | error e => cases h
  | ok a => exact ⟨a, rfl, h⟩

/-- A list in which nothing fails has results that stand beside its items. -/
theorem forall₂_of_mapM {bs : List β} (h : as.mapM f = .ok bs) :
    List.Forall₂ (fun a b => f a = .ok b) as bs := by
  induction as generalizing bs with
  | nil =>
      rw [List.mapM_nil] at h
      rw [← Except.ok.inj h]
      exact .nil
  | cons a as ih =>
      rw [List.mapM_cons] at h
      rcases exists_of_bind h with ⟨b, hb, h⟩
      rcases exists_of_bind h with ⟨bs', hbs', h⟩
      rw [← Except.ok.inj h]
      exact .cons hb (ih hbs')

/-- A list that fails does so because one item does. -/
theorem exists_of_mapM_error {e : ε} (h : as.mapM f = .error e) : ∃ a ∈ as, f a = .error e := by
  induction as with
  | nil =>
      rw [List.mapM_nil] at h
      cases h
  | cons a as ih =>
      rw [List.mapM_cons] at h
      -- The first item that fails decides.
      cases ha : f a with
      | error e' =>
          rw [ha] at h
          have he : e' = e := Except.error.inj h
          exact ⟨a, List.mem_cons_self, by rw [ha, he]⟩
      | ok b =>
          rw [ha] at h
          cases has : as.mapM f with
          | error e' =>
              rw [has] at h
              have he : e' = e := Except.error.inj h
              rcases ih (by rw [has, he]) with ⟨a', ha', hfa'⟩
              exact ⟨a', List.mem_cons_of_mem _ ha', hfa'⟩
          | ok bs =>
              rw [has] at h
              cases h

end Failing

end Spreadsheet
