import Spreadsheet.Engine
import Spreadsheet.Proofs.Number.Distance
import Spreadsheet.Proofs.Recompute.Comparable

/-!
# Comparing Cells

When two collections of cells can be compared, and what is found then.

All names in either collection are gone through, and the first comparison that
fails ends it. The only one that can fail is that of two numbers of which one is
beyond the doubles (`Value.AreBeyond`). Values of other kinds are compared as they
are, and a value that is missing is not compared at all.

## Main definitions

* `Value.AreBeyond`: Two values are numbers, and one is beyond the doubles.

## Theorems

* `Value.differs_of_areBeyond`, `Value.exists_differs`: Which values can be compared.
* `Value.differs_self`: No value counts as different from itself.
* `Change.mem_idsOf`: The names that are gone through.
* `Change.between_eq_error_iff`: Which collections of cells cannot be compared.
* `Change.exists_between`: Collections without numbers beyond the doubles can be.
* `Change.differs_of_mem_between`: A reported value counts as different.
-/

namespace Spreadsheet

namespace Value

/-- Two values are numbers, and one of them is beyond the doubles. -/
def AreBeyond (a b : Option Value) : Prop :=
  ∃ m n, a = some (number m) ∧ b = some (number n) ∧ (m.toFloat? = none ∨ n.toFloat? = none)

variable {a b : Option Value}

theorem comparable_of_some {n : Number} {x : Float} (h : n.toFloat? = some x) :
    comparable n = .ok x := by rw [comparable, h]

theorem comparable_of_none {n : Number} (h : n.toFloat? = none) :
    comparable n = .error .beyondDoubles := by rw [comparable, h]

/-- Numbers are compared as doubles. -/
theorem differs_numbers (tolerance m n : Number) :
    differs tolerance (some (number m)) (some (number n))
      = (comparable m).bind fun x => (comparable n).bind fun y =>
          .ok (tolerance.exceededBy (x - y).abs) := rfl

/-- Values of which one is no number are compared by their content. -/
theorem differs_of_not_numbers (tolerance : Number) {a b : Value}
    (h : ¬ ∃ m n, a = number m ∧ b = number n) :
    differs tolerance (some a) (some b) = .ok (!sameContent a b) := by
  rw [differs]
  exact fun m n ha hb => h ⟨m, n, ha, hb⟩

theorem differs_of_areBeyond (tolerance : Number) (h : AreBeyond a b) :
    differs tolerance a b = .error .beyondDoubles := by
  rcases h with ⟨m, n, rfl, rfl, hbeyond⟩
  rw [differs_numbers]
  cases hm : m.toFloat? with
  | none =>
      rw [comparable_of_none hm]
      rfl
  | some x =>
      have hn : n.toFloat? = none := hbeyond.resolve_left (by rw [hm]; exact Option.some_ne_none x)
      rw [comparable_of_some hm, comparable_of_none hn]
      rfl

/-- All other values can be compared. -/
theorem exists_differs (tolerance : Number) (h : ¬ AreBeyond a b) :
    ∃ d, differs tolerance a b = .ok d := by
  cases a with
  | none =>
      cases b with
      | none => exact ⟨false, rfl⟩
      | some b => exact ⟨true, rfl⟩
  | some a =>
      cases b with
      | none => exact ⟨true, rfl⟩
      | some b =>
          -- Only two numbers are converted, and these can be.
          by_cases hnumbers : ∃ m n, a = number m ∧ b = number n
          · rcases hnumbers with ⟨m, n, rfl, rfl⟩
            have hfloats : m.toFloat? ≠ none ∧ n.toFloat? ≠ none :=
              ⟨fun hm => h ⟨m, n, rfl, rfl, Or.inl hm⟩, fun hn => h ⟨m, n, rfl, rfl, Or.inr hn⟩⟩
            rcases Option.ne_none_iff_exists'.mp hfloats.1 with ⟨x, hx⟩
            rcases Option.ne_none_iff_exists'.mp hfloats.2 with ⟨y, hy⟩
            rw [differs_numbers, comparable_of_some hx, comparable_of_some hy]
            exact ⟨_, rfl⟩
          · exact ⟨_, differs_of_not_numbers tolerance hnumbers⟩

theorem sameContent_self {v : Value} (h : ∀ n, v ≠ number n) : v.sameContent v = true := by
  cases v with
  | number n => exact absurd rfl (h n)
  | text s => exact beq_self_eq_true s
  | bool b => exact beq_self_eq_true b
  | error code => exact beq_self_eq_true code
  | range r => exact beq_self_eq_true r

/-- No value counts as different from itself. -/
theorem differs_self {tolerance : Number} (h : tolerance.IsNonnegative) (v : Option Value) :
    differs tolerance v v ≠ .ok true := by
  intro hdiffers
  cases v with
  | none => cases hdiffers
  | some v =>
      by_cases hnumber : ∃ n, v = number n
      · -- A number is compared with itself as a double, and the distance is zero or NaN.
        rcases hnumber with ⟨n, rfl⟩
        rw [differs_numbers] at hdiffers
        rcases exists_of_bind hdiffers with ⟨x, hx, hdiffers⟩
        rcases exists_of_bind hdiffers with ⟨y, hy, hdiffers⟩
        have hexceeded := Except.ok.inj hdiffers
        rw [Except.ok.inj (hx.symm.trans hy), Number.exceededBy_sub_self h] at hexceeded
        exact Bool.false_ne_true hexceeded
      · have hne : ∀ n, v ≠ number n := fun n heq => hnumber ⟨n, heq⟩
        rw [differs_of_not_numbers, sameContent_self hne] at hdiffers
        · cases hdiffers
        · rintro ⟨n, _, hn, _⟩
          exact hne n hn

theorem not_areBeyond (ha : ∀ v, a = some v → v.IsComparable)
    (hb : ∀ v, b = some v → v.IsComparable) : ¬ AreBeyond a b := by
  rintro ⟨m, n, hm, hn, h | h⟩
  · have hsome : m.toFloat?.isSome = true := ha _ hm
    rw [h] at hsome
    exact Bool.false_ne_true hsome
  · have hsome : n.toFloat?.isSome = true := hb _ hn
    rw [h] at hsome
    exact Bool.false_ne_true hsome

end Value

namespace Change

variable {tolerance : Number} {before after : Cells}

/-- All names in either collection are gone through. -/
theorem mem_idsOf {id : String} : id ∈ idsOf before after ↔ id ∈ before.keys ∨ id ∈ after.keys := by
  rw [idsOf, (List.mergeSort_perm _ _).mem_iff, List.mem_append, List.mem_filter]
  by_cases hbefore : id ∈ before.keys
  · exact iff_of_true (Or.inl hbefore) (Or.inl hbefore)
  · have hcontains : before.contains id = false := by
      rw [← Bool.not_eq_true, OrderedMap.contains_iff_mem_keys]
      exact hbefore
    rw [hcontains]
    exact or_congr_right (and_iff_left rfl)

theorem ofCell?_eq (tolerance : Number) (before after : Cells) (id : String) :
    ofCell? tolerance before after id
      = (Value.differs tolerance (before.computedAt id) (after.computedAt id)).bind fun d =>
          .ok (if d then some ⟨id, before.computedAt id, after.computedAt id,
            (after.get? id).bind Cell.formula⟩ else none) := by
  rw [ofCell?]
  show Except.bind _ _ = Except.bind _ _
  congr 1
  funext d
  cases d with
  | true => rfl
  | false => rfl

theorem ofCell?_of_areBeyond {id : String}
    (h : Value.AreBeyond (before.computedAt id) (after.computedAt id)) :
    ofCell? tolerance before after id = .error .beyondDoubles := by
  rw [ofCell?_eq, Value.differs_of_areBeyond tolerance h]
  rfl

theorem areBeyond_of_ofCell? {id : String} {e : EngineError}
    (h : ofCell? tolerance before after id = .error e) :
    Value.AreBeyond (before.computedAt id) (after.computedAt id) := by
  by_contra hbeyond
  rcases Value.exists_differs tolerance hbeyond with ⟨d, hd⟩
  rw [ofCell?_eq, hd] at h
  cases h

/-- Two collections cannot be compared if the values of some cell cannot. -/
theorem between_eq_error_iff {e : EngineError} :
    between tolerance before after = .error e ↔
      e = .beyondDoubles ∧ ∃ id, Value.AreBeyond (before.computedAt id) (after.computedAt id) := by
  -- Whatever fails, fails in a cell whose values are beyond the doubles.
  have herror : ∀ {e}, (idsOf before after).mapM (ofCell? tolerance before after) = .error e →
      e = .beyondDoubles ∧ ∃ id, Value.AreBeyond (before.computedAt id) (after.computedAt id) := by
    intro e h
    rcases exists_of_mapM_error h with ⟨id, _, hid⟩
    have hbeyond := areBeyond_of_ofCell? hid
    rw [ofCell?_of_areBeyond hbeyond] at hid
    exact ⟨(Except.error.inj hid).symm, id, hbeyond⟩
  rw [between]
  cases hfound : (idsOf before after).mapM (ofCell? tolerance before after) with
  | error e' =>
      rcases herror hfound with ⟨rfl, hbeyond⟩
      exact ⟨fun h => ⟨(Except.error.inj h).symm, hbeyond⟩, fun h => by rw [h.1]; rfl⟩
  | ok found =>
      -- If all cells were compared, then so was the one that cannot be.
      refine iff_of_false (fun h => by cases h) fun h => ?_
      rcases h with ⟨_, id, hbeyond⟩
      have hmem : id ∈ idsOf before after := by
        rcases hbeyond with ⟨m, _, hm, _⟩
        rcases Option.bind_eq_some_iff.mp hm with ⟨c, hc, _⟩
        exact mem_idsOf.mpr (Or.inl ((OrderedMap.mem_keys_iff before).mpr ⟨c, hc⟩))
      rcases exists_mem_right (forall₂_of_mapM hfound) hmem with ⟨change, _, hchange⟩
      rw [ofCell?_of_areBeyond hbeyond] at hchange
      cases hchange

/-- Collections without numbers beyond the doubles can be compared. -/
theorem exists_between (tolerance : Number) (hbefore : before.AreComparable)
    (hafter : after.AreComparable) : ∃ changes, between tolerance before after = .ok changes := by
  cases h : between tolerance before after with
  | ok changes => exact ⟨changes, rfl⟩
  | error e =>
      rcases between_eq_error_iff.mp h with ⟨_, id, hbeyond⟩
      exact absurd hbeyond (Value.not_areBeyond (hbefore id) (hafter id))

/-- What is reported as changed has a value that counts as different. -/
theorem differs_of_mem_between {changes : List Change}
    (h : between tolerance before after = .ok changes) {change : Change}
    (hchange : change ∈ changes) :
    Value.differs tolerance (before.computedAt change.id) (after.computedAt change.id)
      = .ok true := by
  rw [between] at h
  rcases exists_of_bind h with ⟨found, hfound, hchanges⟩
  rw [← Except.ok.inj hchanges] at hchange
  rcases List.mem_filterMap.mp hchange with ⟨_, hmem, rfl⟩
  -- The change comes from the comparison of one cell, which was found to differ.
  rcases exists_mem_left (forall₂_of_mapM hfound) hmem with ⟨id, _, hid⟩
  rw [ofCell?_eq] at hid
  rcases exists_of_bind hid with ⟨d, hd, hsome⟩
  cases d with
  | false => cases hsome
  | true =>
      have hid : change.id = id := by rw [← Option.some.inj (Except.ok.inj hsome)]
      rw [hid]
      exact hd

end Change

end Spreadsheet
