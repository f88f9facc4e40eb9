import Spreadsheet.Document
import Spreadsheet.Proofs.OrderedMap
import Spreadsheet.Proofs.Recompute.Input
import Mathlib.Tactic.ByContra

/-!
# Entries of Documents

The entry of a cell is read back as the cell, without what an entry does not keep.

An entry has no place for the computed value, which is found anew, and it leaves out
what says nothing: a formula without text, and a style that sets no attribute. What
remains of a cell is its tidied form, and this is what is read. A style is written
attribute by attribute under keys that are all different, so setting the attributes
of the written fields, one after the other, gives the style again.

## Main definitions

* `Cell.tidy`: A cell without a formula or a style that says nothing.

## Theorems

* `Style.ofFields_toFields`: A style is read back.
* `Cell.ofEntry_toEntry`: A cell is read back from its entry.
-/

namespace Spreadsheet

namespace Attribute

theorem mem_all (a : Attribute) : a ∈ all := by
  cases a <;> decide

/-- Different attributes have different keys. -/
theorem ofKey?_key (a : Attribute) : ofKey? a.key = some a := by
  cases a <;> decide

end Attribute

namespace Style

theorem ext_value? {s t : Style} (h : ∀ a, s.value? a = t.value? a) : s = t := by
  cases s
  cases t
  congr 1
  exact funext h

/-- A field for an attribute sets it. -/
theorem setAll_cons_of_some (s : Style) {find? : String → Option Attribute} {a : Attribute}
    {field : String × Json} (h : find? field.1 = some a) (fields : List (String × Json)) :
    s.setAll find? (field :: fields) = (s.set a field.2).setAll find? fields := by
  simp only [setAll, List.foldl_cons, h]

/-- Other fields are skipped. -/
theorem setAll_cons_of_none (s : Style) {find? : String → Option Attribute}
    {field : String × Json} (h : find? field.1 = none) (fields : List (String × Json)) :
    s.setAll find? (field :: fields) = s.setAll find? fields := by
  simp only [setAll, List.foldl_cons, h]

/-- Setting the fields of some attributes gives these their values, as far as they
    have one. -/
theorem value?_setAll (s : Style) (attributes : List Attribute) (start : Style) (a : Attribute) :
    (start.setAll Attribute.ofKey? (attributes.filterMap fun a =>
        (s.value? a).map fun value => (a.key, value))).value? a
      = (if a ∈ attributes then s.value? a else none).or (start.value? a) := by
  induction attributes generalizing start with
  | nil => rfl
  | cons b attributes ih =>
      cases hvalue : s.value? b with
      | none =>
          rw [List.filterMap_cons_none (by rw [hvalue]; rfl), ih]
          by_cases hb : a = b
          · rw [hb, hvalue, ite_self, ite_self]
          · simp only [List.mem_cons, hb, false_or]
      | some value =>
          -- The first attribute is set, and those that follow do not set it again to anything
          -- else.
          have hnull : value ≠ .null := fun heq => s.value?_ne_null b (by rw [hvalue, heq])
          rw [List.filterMap_cons_some (by rw [hvalue]; rfl),
            setAll_cons_of_some start (Attribute.ofKey?_key b), ih]
          by_cases hb : a = b
          · rw [hb, if_pos List.mem_cons_self, value?_set_self start b value hnull, hvalue]
            split <;> rfl
          · simp only [value?_set_of_ne start value hb, List.mem_cons, hb, false_or]

/-- A style is read back from its fields. -/
theorem ofFields_toFields (s : Style) : ofFields s.toFields = s :=
  ext_value? fun a => by
    rw [ofFields, toFields, value?_setAll, if_pos (Attribute.mem_all a)]
    exact Option.or_none

end Style

namespace Cell

/-- The cell without what says nothing: a formula without text, or a style that sets
    no attribute. -/
def tidy (c : Cell) : Cell :=
  { c with formula := c.formula?, style := c.style.filter fun s => !s.isEmpty }

theorem formula?_tidy (c : Cell) : c.tidy.formula? = c.formula? := by
  show (c.formula.filter fun f => !f.isEmpty).filter (fun f => !f.isEmpty)
    = c.formula.filter fun f => !f.isEmpty
  rw [Option.filter_filter]
  simp only [Bool.and_self]

/-- What is computed from a cell does not depend on what says nothing. -/
theorem input_tidy (c : Cell) : c.tidy.input = c.input := by
  rw [input, input, formula?_tidy]
  rfl

theorem hasStyle_iff_filter (c : Cell) :
    c.style.filter (fun s => !s.isEmpty) = if c.hasStyle then c.style else none := by
  cases hstyle : c.style with
  | none => rw [ite_self]; rfl
  | some s =>
      rw [hasStyle, hstyle, Option.filter_some]
      rfl

/-- The fields of the entry of a cell. -/
theorem exists_toEntry (c : Cell) : ∃ fields, c.toEntry = .object fields ∧
    Json.field? fields "value" = some (.text c.value) ∧
    Json.field? fields "formula" = c.formula?.map .text ∧
    Json.field? fields "style"
      = (c.style.filter fun s => !s.isEmpty).map fun s => .object s.toFields := by
  rw [hasStyle_iff_filter, toEntry]
  -- The fields are known as soon as it is known which of them are there.
  cases c.formula? with
  | none | some _ =>
      cases c.hasStyle with
      | false => exact ⟨_, rfl, rfl, rfl, rfl⟩
      | true =>
          cases c.style with
          | none | some _ => exact ⟨_, rfl, rfl, rfl, rfl⟩

theorem formulaOfEntry_text (id : String) (c : Cell) :
    formulaOfEntry id (c.formula?.map .text) = .ok c.formula? := by
  cases hformula : c.formula? with
  | none => rfl
  | some formula =>
      have hfilled : (Json.text formula).isVoid = false := by
        have hne := (Option.filter_eq_some_iff.mp hformula).2
        rwa [Bool.not_eq_true'] at hne
      rw [Option.map_some, formulaOfEntry]
      simp only [hfilled, Bool.false_eq_true, if_false]

theorem styleOfEntry_object (id : String) (style : Option Style) :
    styleOfEntry id ((style.filter fun s => !s.isEmpty).map fun s => .object s.toFields)
      = .ok (style.filter fun s => !s.isEmpty) := by
  cases hstyle : style.filter fun s => !s.isEmpty with
  | none => rfl
  | some s =>
      have hfilled := (Option.filter_eq_some_iff.mp hstyle).2
      rw [Bool.not_eq_true'] at hfilled
      rw [Option.map_some, styleOfEntry]
      simp only [Style.ofFields_toFields, hfilled, Bool.false_eq_true, if_false]

/-- A cell is read back from its entry, tidied and without a computed value. -/
theorem ofEntry_toEntry (id : String) (c : Cell) : ofEntry id c.toEntry = .ok c.tidy.entry := by
  rcases exists_toEntry c with ⟨fields, hentry, hvalue, hformula, hstyle⟩
  rw [hentry, ofEntry, hvalue, hformula, hstyle, formulaOfEntry_text, styleOfEntry_object]
  rfl

end Cell

end Spreadsheet
