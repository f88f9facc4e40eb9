import Spreadsheet.Proofs.Document.Entry
import Spreadsheet.Proofs.Edit.Cell

/-!
# Edits in Either Order

Two edits that do not conflict come to the same in either order.

Edits of different cells do not see each other, apart from the values, and those are
found anew. Of one cell, a text that is typed and a style that is changed concern
different things, and so do two changes of different attributes; only two texts, or
two values of one attribute, replace each other (`CellEdit.ConflictsWith`).

On the way a cell may be dropped and made again, in one order and not in the other.
It would be tedious to follow this, and it is not needed: an edit does to a cell that
is absent what it does to one with nothing in it (`Cell.contents`), and a cell that
was edited is there exactly if there is something in it. So the contents are
compared first, and which cells there are follows from it.

The mappings may list the cells in different orders, and a formula without text lives
on in one order and is gone with its cell in the other. A formula without text is no
formula (`Cell.tidy`), and this is why the cells are compared without it.

## Main definitions

* `Cells.SameTidy`: The same cells apart from what says nothing, and from values.
* `Cell.contents`: What is in a cell, whether there is a cell or not.
* `CellEdit.fill`: What an edit makes of the contents of a cell.
* `CellEdit.ConflictsWith`: Two edits of which the second replaces the first.

## Theorems

* `Style.setAll_comm`: Different attributes are changed in either order.
* `CellEdit.fill_comm`: Edits that do not clash fill a cell in either order.
* `CellEdit.contentsAt_onCells`: What is in the cells after an edit.
* `CellEdit.apply_comm`: Edits that do not conflict come to the same in either order.
-/

namespace Spreadsheet

theorem Attribute.name_of_ofName? {name : String} {a : Attribute} (h : ofName? name = some a) :
    a.name = name := by
  have hname := List.find?_some h
  exact eq_of_beq hname

namespace Style

variable {find? : String → Option Attribute} {fields fields' : List (String × Json)}
  {a : Attribute}

/-- An attribute that is in none of the fields stays as it is. -/
theorem value?_setAll_of_not_set (s : Style) (h : ∀ field ∈ fields, find? field.1 ≠ some a) :
    (s.setAll find? fields).value? a = s.value? a := by
  induction fields generalizing s with
  | nil => rfl
  | cons field fields ih =>
      have hrest := fun s => ih s fun field' hfield' => h field' (List.mem_cons_of_mem _ hfield')
      cases hfind : find? field.1 with
      | none => rw [setAll_cons_of_none s hfind, hrest]
      | some b =>
          have hne : a ≠ b := fun heq => h field List.mem_cons_self (by rw [hfind, heq])
          rw [setAll_cons_of_some s hfind, hrest, value?_set_of_ne s field.2 hne]

/-- What an attribute in one of the fields is set to does not depend on the start. -/
theorem value?_setAll_of_set (s t : Style) (h : ∃ field ∈ fields, find? field.1 = some a) :
    (s.setAll find? fields).value? a = (t.setAll find? fields).value? a := by
  induction fields generalizing s t with
  | nil =>
      rcases h with ⟨field, hfield, _⟩
      cases hfield
  | cons field fields ih =>
      by_cases hrest : ∃ field ∈ fields, find? field.1 = some a
      · cases hfind : find? field.1 with
        | none => rw [setAll_cons_of_none s hfind, setAll_cons_of_none t hfind, ih s t hrest]
        | some b =>
            rw [setAll_cons_of_some s hfind, setAll_cons_of_some t hfind, ih _ _ hrest]
      · -- The first field is the only one for this attribute.
        have hnot : ∀ field ∈ fields, find? field.1 ≠ some a :=
          fun field' hfield' heq => hrest ⟨field', hfield', heq⟩
        have hhead : find? field.1 = some a := by
          rcases h with ⟨field', hfield', heq⟩
          rcases List.mem_cons.mp hfield' with rfl | hfield'
          · exact heq
          · exact absurd heq (hnot field' hfield')
        rw [setAll_cons_of_some s hhead, setAll_cons_of_some t hhead,
          value?_setAll_of_not_set _ hnot, value?_setAll_of_not_set _ hnot]
        exact (if_pos rfl).trans (if_pos rfl).symm

/-- Different attributes are changed in either order. -/
theorem setAll_comm (s : Style)
    (h : ∀ field ∈ fields, ∀ field' ∈ fields', ∀ a, find? field.1 = some a →
      find? field'.1 ≠ some a) :
    (s.setAll find? fields).setAll find? fields'
      = (s.setAll find? fields').setAll find? fields := by
  -- Each attribute is set by one of the changes at most, and that one decides.
  refine ext_value? fun a => ?_
  by_cases hset : ∃ field ∈ fields, find? field.1 = some a
  · rcases hset with ⟨field, hfield, hfind⟩
    rw [value?_setAll_of_not_set _ fun field' hfield' => h field hfield field' hfield' a hfind]
    exact value?_setAll_of_set _ _ ⟨field, hfield, hfind⟩
  · have hnot : ∀ field ∈ fields, find? field.1 ≠ some a :=
      fun field hfield heq => hset ⟨field, hfield, heq⟩
    rw [value?_setAll_of_not_set _ hnot]
    by_cases hset' : ∃ field' ∈ fields', find? field'.1 = some a
    · exact value?_setAll_of_set _ _ hset'
    · have hnot' : ∀ field' ∈ fields', find? field'.1 ≠ some a :=
        fun field' hfield' heq => hset' ⟨field', hfield', heq⟩
      rw [value?_setAll_of_not_set _ hnot', value?_setAll_of_not_set _ hnot',
        value?_setAll_of_not_set _ hnot]

/-- A style that sets no attribute is the empty one. -/
theorem eq_empty_of_isEmpty {s : Style} (h : s.isEmpty = true) : s = .empty :=
  ext_value? fun a =>
    Option.isNone_iff_eq_none.mp (List.all_eq_true.mp h a (Attribute.mem_all a))

end Style

namespace Cell

/-- What is in a cell, without the value that was found: nothing, if there is no
    cell. -/
def contents (c : Option Cell) : Cell where
  value := (c.getD {}).value
  formula := (c.getD {}).formula?
  style := some ((c.getD {}).style.getD .empty)

theorem formula?_contents (c : Option Cell) : (contents c).formula? = (c.getD {}).formula? :=
  formula?_tidy (c.getD {})

/-- Two cells have the same in them if they have the same literal, formula and
    attributes. -/
theorem contents_eq {c c' : Option Cell} (hvalue : (c.getD {}).value = (c'.getD {}).value)
    (hformula : (c.getD {}).formula? = (c'.getD {}).formula?)
    (hstyle : (c.getD {}).style.getD .empty = (c'.getD {}).style.getD .empty) :
    contents c = contents c' := by
  rw [contents, contents, hvalue, hformula, hstyle]

theorem contents_map_entry (c : Option Cell) : contents (c.map entry) = contents c := by
  cases c <;> rfl

/-- There is nothing in an empty cell. -/
theorem contents_of_isEmpty {c : Cell} (h : c.isEmpty = true) :
    contents (some c) = contents none := by
  rw [isEmpty, Bool.and_eq_true, Bool.and_eq_true, Bool.not_eq_true', Bool.not_eq_true'] at h
  rcases h with ⟨⟨hvalue, hformula⟩, hstyle⟩
  refine contents_eq (String.isEmpty_iff.mp hvalue) ?_ ?_
  · show c.formula? = none
    rw [isFormula] at hformula
    exact Option.isNone_iff_eq_none.mp (Option.isSome_eq_false_iff.mp hformula)
  · show c.style.getD .empty = Style.empty
    cases hs : c.style with
    | none => rfl
    | some s =>
        rw [hasStyle, hs] at hstyle
        exact Style.eq_empty_of_isEmpty ((Bool.not_eq_false' _).mp hstyle)

theorem isEmpty_contents (c : Cell) : (contents (some c)).isEmpty = c.isEmpty := by
  have hformula : (contents (some c)).isFormula = c.isFormula :=
    congrArg Option.isSome (formula?_contents (some c))
  have hstyle : (contents (some c)).hasStyle = c.hasStyle := by
    rw [hasStyle, hasStyle]
    cases hs : c.style with
    | none => simp only [contents, Option.getD_some, hs]; rfl
    | some s => simp only [contents, Option.getD_some, hs]
  rw [isEmpty, isEmpty, hformula, hstyle]
  rfl

/-- A tidied cell is told by what is in it, apart from the value that was found. -/
theorem tidy_contents (c : Cell) : (contents (some c)).tidy = c.tidy.entry := by
  have hstyle : (contents (some c)).style.filter (fun s => !s.isEmpty)
      = c.style.filter fun s => !s.isEmpty := by
    cases hs : c.style with
    | none => simp only [contents, Option.getD_some, hs]; rfl
    | some s => simp only [contents, Option.getD_some, hs]
  rw [tidy, formula?_contents, hstyle]
  rfl

end Cell

namespace Cells

/-- Two collections of cells are the same apart from what says nothing, and from the
    values found for them. -/
def SameTidy (a b : Cells) : Prop :=
  ∀ id, (a.get? id).map (fun c => c.tidy.entry) = (b.get? id).map fun c => c.tidy.entry

/-- What is in the cell of a name, if there is one. -/
def contentsAt (cells : Cells) (id : String) : Cell := .contents (cells.get? id)

/-- The cell of a name is not empty, if there is one. -/
def NonemptyAt (cells : Cells) (id : String) : Prop :=
  ∀ c, cells.get? id = some c → c.isEmpty = false

variable {a b cells : Cells} {id : String}

theorem contentsAt_recompute (functions : Registry) (cells : Cells) (id : String) :
    (cells.recompute functions).contentsAt id = cells.contentsAt id := by
  rw [contentsAt, ← Cell.contents_map_entry, (sameEntries_recompute functions cells).entry,
    Cell.contents_map_entry]
  rfl

theorem NonemptyAt.recompute (h : cells.NonemptyAt id) (functions : Registry) :
    (cells.recompute functions).NonemptyAt id :=
  (sameEntries_recompute functions cells).isEmpty_eq_false h

/-- Where neither cell is empty, it is the contents that count. -/
theorem tidy_eq_of_contentsAt (ha : a.NonemptyAt id) (hb : b.NonemptyAt id)
    (h : a.contentsAt id = b.contentsAt id) :
    (a.get? id).map (fun c => c.tidy.entry) = (b.get? id).map fun c => c.tidy.entry := by
  -- If only one of the cells were there, there would be nothing in it.
  have hone : ∀ {c : Cell}, Cell.contents (some c) = Cell.contents none → c.isEmpty = true := by
    intro c hc
    rw [← Cell.isEmpty_contents, hc]
    rfl
  rw [contentsAt, contentsAt] at h
  cases hget : a.get? id with
  | none =>
      cases hget' : b.get? id with
      | none => rfl
      | some c' =>
          rw [hget, hget'] at h
          exact absurd (hone h.symm) (by rw [hb c' hget']; exact Bool.false_ne_true)
  | some c =>
      cases hget' : b.get? id with
      | none =>
          rw [hget, hget'] at h
          exact absurd (hone h) (by rw [ha c hget]; exact Bool.false_ne_true)
      | some c' =>
          rw [hget, hget'] at h
          rw [Option.map_some, Option.map_some, ← Cell.tidy_contents, h, Cell.tidy_contents]

/-- Recomputation changes nothing but computed values, with the rest tidied as well. -/
theorem tidy_recompute (functions : Registry) (cells : Cells) (id : String) :
    ((cells.recompute functions).get? id).map (fun c => c.tidy.entry)
      = (cells.get? id).map fun c => c.tidy.entry := by
  have hentry := congrArg (Option.map Cell.tidy) ((sameEntries_recompute functions cells).entry id)
  rwa [Option.map_map, Option.map_map] at hentry

/-- What says nothing has no influence on what is found. -/
theorem SameTidy.get?_recompute (h : SameTidy a b) (functions : Registry) (hcovered : a.Covered)
    (id : String) :
    ((a.recompute functions).get? id).map Cell.tidy
      = ((b.recompute functions).get? id).map Cell.tidy := by
  have htidy : ∀ (cells : Cells) id, (cells.mapValues fun _ c => c.tidy).get? id
      = (cells.get? id).map Cell.tidy := fun cells id => OrderedMap.get?_mapValues _ _ id
  -- What says nothing is no input of the recomputation.
  have hinput : SameInput a b := by
    intro id
    have hinput := congrArg (Option.map Cell.input) (h id)
    rw [Option.map_map, Option.map_map] at hinput
    have hcell : ∀ c : Cell, (Cell.input ∘ fun c => c.tidy.entry) c = c.input := Cell.input_tidy
    rwa [funext hcell] at hinput
  rw [← htidy, ← htidy]
  refine get?_eq_of_entry ?_ ?_
  · rw [htidy, htidy, Option.map_map, Option.map_map]
    exact (tidy_recompute functions a id).trans ((h id).trans (tidy_recompute functions b id).symm)
  · have hcomputed := hinput.computedAt_eq functions hcovered id
    rw [computedAt, computedAt, htidy, htidy, Option.bind_map, Option.bind_map]
    exact hcomputed

end Cells

namespace CellEdit

/-- What an edit makes of the contents of a cell. -/
def fill (edit : CellEdit) (x : Cell) : Cell := .contents (some (edit.cell (some x)))

/-- Two edits of a cell of which the second replaces the first. -/
def Clashes : CellEdit → CellEdit → Prop
  | type _ _, type _ _ => True
  | restyle _ changes, restyle _ changes' =>
    ∃ change ∈ changes, ∃ change' ∈ changes', change.1 = change'.1
  | _, _ => False

/-- Two edits conflict if they are of one cell and both type a text, or both change
    one of its attributes. -/
def ConflictsWith (p q : CellEdit) : Prop := p.address = q.address ∧ p.Clashes q

variable {p q : CellEdit} {cells : Cells} {id id' : String}

/-- What an edit makes of a cell depends on its contents only. -/
theorem contents_cell (edit : CellEdit) (c : Option Cell) :
    Cell.contents (some (edit.cell c)) = edit.fill (.contents c) := by
  cases edit with
  | type a text =>
      have hstyle : (c.bind Cell.style).getD .empty = (c.getD {}).style.getD .empty := by
        cases c <;> rfl
      show Cell.contents (some (Cell.ofText text (c.bind Cell.style)))
        = Cell.contents (some (Cell.ofText text (some ((c.getD {}).style.getD .empty))))
      rw [Cell.ofText, Cell.ofText]
      split
      · exact Cell.contents_eq rfl rfl hstyle
      · exact Cell.contents_eq rfl rfl hstyle
  | restyle a changes =>
      exact Cell.contents_eq rfl (Cell.formula?_contents c).symm rfl

/-- Edits that do not clash fill a cell in either order. -/
theorem fill_comm (h : ¬ p.Clashes q) (x : Cell) : q.fill (p.fill x) = p.fill (q.fill x) := by
  -- A text and a style concern different things, so it does not matter which comes first.
  have hmixed : ∀ a text b changes,
      (restyle b changes).fill ((type a text).fill x)
        = (type a text).fill ((restyle b changes).fill x) := by
    intro a text b changes
    show Cell.contents (some (Cell.restyled changes
        (some (Cell.contents (some (Cell.ofText text x.style))))))
      = Cell.contents (some (Cell.ofText text (some ((x.style.getD .empty).setAll
          Attribute.ofName? changes))))
    rw [Cell.ofText, Cell.ofText]
    split
    · exact Cell.contents_eq rfl
        (Cell.formula?_contents (some { formula := some text, style := x.style })) rfl
    · exact Cell.contents_eq rfl
        (Cell.formula?_contents (some { value := text, style := x.style })) rfl
  cases p with
  | type a text =>
      cases q with
      | type b text' => exact absurd trivial h
      | restyle b changes => exact hmixed a text b changes
  | restyle a changes =>
      cases q with
      | type b text => exact (hmixed b text a changes).symm
      | restyle b changes' =>
          refine Cell.contents_eq rfl rfl (Style.setAll_comm _ ?_)
          -- Different names are names of different attributes.
          intro change hchange change' hchange' shared hfind hfind'
          exact h ⟨change, hchange, change', hchange',
            (Attribute.name_of_ofName? hfind).symm.trans (Attribute.name_of_ofName? hfind')⟩

/-- What is in the cells after an edit. -/
theorem contentsAt_onCells (edit : CellEdit) (cells : Cells) (id id' : String) :
    (edit.onCells id cells).contentsAt id'
      = if id' = id then edit.fill (cells.contentsAt id') else cells.contentsAt id' := by
  by_cases hid : id' = id
  · rw [if_pos hid, hid, Cells.contentsAt, Cells.contentsAt, ← contents_cell, onCells,
      Cells.get?_put_self]
    split
    · rename_i hempty
      exact (Cell.contents_of_isEmpty hempty).symm
    · rfl
  · rw [if_neg hid, Cells.contentsAt, get?_onCells_of_ne edit hid]
    rfl

/-- The cell of an edit is not empty afterwards, and the others stay as they are. -/
theorem nonemptyAt_onCells (edit : CellEdit) (h : id' = id ∨ cells.NonemptyAt id') :
    (edit.onCells id cells).NonemptyAt id' := by
  intro c hget
  by_cases hid : id' = id
  · rw [hid, onCells, Cells.get?_put_self] at hget
    rcases Option.ite_none_left_eq_some.mp hget with ⟨hempty, hcell⟩
    rw [← Option.some.inj hcell]
    exact (Bool.not_eq_true _).mp hempty
  · rw [get?_onCells_of_ne edit hid] at hget
    exact h.resolve_left hid c hget

/-- Two edits that do not clash, with the values found in between, give the same cells
    in either order. -/
theorem sameTidy_onCells (h : id = id' → ¬ p.Clashes q) (functions : Registry) (cells : Cells) :
    Cells.SameTidy (q.onCells id' ((p.onCells id cells).recompute functions))
      (p.onCells id ((q.onCells id' cells).recompute functions)) := by
  intro id''
  by_cases htouched : id'' = id ∨ id'' = id'
  · -- A cell that was edited is there exactly if there is something in it.
    refine Cells.tidy_eq_of_contentsAt ?_ ?_ ?_
    · exact nonemptyAt_onCells q (htouched.symm.imp_right fun hid =>
        (nonemptyAt_onCells p (Or.inl hid)).recompute functions)
    · exact nonemptyAt_onCells p (htouched.imp_right fun hid =>
        (nonemptyAt_onCells q (Or.inl hid)).recompute functions)
    · rw [contentsAt_onCells, contentsAt_onCells, Cells.contentsAt_recompute,
        Cells.contentsAt_recompute, contentsAt_onCells, contentsAt_onCells]
      by_cases hp : id'' = id
      · by_cases hq : id'' = id'
        · rw [if_pos hp, if_pos hq, if_pos hp, if_pos hq, fill_comm (h (hp.symm.trans hq))]
        · rw [if_pos hp, if_neg hq, if_pos hp, if_neg hq]
      · rw [if_neg hp, if_neg hp]
  · rw [not_or] at htouched
    -- The other cells are as they were, apart from their values.
    rw [get?_onCells_of_ne q htouched.2, get?_onCells_of_ne p htouched.1, Cells.tidy_recompute,
      Cells.tidy_recompute, get?_onCells_of_ne p htouched.1, get?_onCells_of_ne q htouched.2]

/-- Edits that do not conflict come to the same in either order: the same cells with
    the same values, apart from formulas and styles that say nothing. -/
theorem apply_comm {sheet s₁ s₂ : Sheet} (hregular : sheet.IsRegular) (hp : p.IsRegular)
    (hq : q.IsRegular) (hconflict : ¬ p.ConflictsWith q) (h₁ : p.apply sheet = .ok s₁)
    (h₂ : q.apply sheet = .ok s₂) :
    ∃ s₁₂ s₂₁, q.apply s₁ = .ok s₁₂ ∧ p.apply s₂ = .ok s₂₁ ∧
      ∀ id, (s₁₂.cells.get? id).map Cell.tidy = (s₂₁.cells.get? id).map Cell.tidy := by
  rcases apply_eq_ok_iff.mp h₁ with ⟨hknown, id, hid, rfl⟩
  rcases apply_eq_ok_iff.mp h₂ with ⟨hknown', id', hid', rfl⟩
  refine ⟨_, _, apply_eq_ok_iff.mpr ⟨hknown', id', hid', rfl⟩,
    apply_eq_ok_iff.mpr ⟨hknown, id, hid, rfl⟩, fun id'' => ?_⟩
  have hclash : id = id' → ¬ p.Clashes q := by
    intro heq hclash
    -- One name denotes one position.
    have haddress := Address.ofId?_of_toId hid
    rw [heq, Address.ofId?_of_toId hid'] at haddress
    exact hconflict ⟨(Option.some.inj haddress).symm, hclash⟩
  have hcovered : (q.onCells id' ((p.onCells id sheet.cells).recompute .builtins)).Covered :=
    covered_onCells (Cells.covered_recompute (covered_onCells hregular.covered hp id)) hq id'
  exact (sameTidy_onCells hclash .builtins sheet.cells).get?_recompute .builtins hcovered id''

/-- A cell with nothing but a style, which one edit takes away and another one types
    into, next to a formula that counts it. -/
theorem apply_comm_removed :
    let sheet : Sheet := { cells := .ofList [("B1", { formula := some "=COUNTA(A1:A2)" }),
      ("A1", { style := some (Style.empty.set .bold (.bool true)) })] }
    let p := restyle ⟨0, 0⟩ [("bold", .null)]
    let q := type ⟨0, 0⟩ "=2*3"
    sheet.IsRegular ∧ p.IsRegular ∧ q.IsRegular ∧ ¬ p.ConflictsWith q ∧
      ∃ s₁ s₂, p.apply sheet = .ok s₁ ∧ q.apply sheet = .ok s₂ ∧
        ∃ s₁₂ s₂₁, q.apply s₁ = .ok s₁₂ ∧ p.apply s₂ = .ok s₂₁ ∧
          ∀ id, (s₁₂.cells.get? id).map Cell.tidy = (s₂₁.cells.get? id).map Cell.tidy := by
  intro sheet p q
  have hregular : sheet.IsRegular := by decide +kernel
  have hq : Formula.IsRegularText "=2*3" := by decide +kernel
  have hconflict : ¬ p.ConflictsWith q := fun h => h.2
  have hid : Address.toId ⟨0, 0⟩ = .ok "A1" := by decide +kernel
  have hknown : p.IsKnown := by decide +kernel
  have h₁ : p.apply sheet = .ok _ := apply_eq_ok_iff.mpr ⟨hknown, "A1", hid, rfl⟩
  have h₂ : q.apply sheet = .ok _ := apply_eq_ok_iff.mpr ⟨trivial, "A1", hid, rfl⟩
  exact ⟨hregular, trivial, hq, hconflict, _, _, h₁, h₂,
    apply_comm hregular trivial hq hconflict h₁ h₂⟩

/-- A formula without text makes a difference to the cells as they are. -/
theorem not_apply_comm_self :
    ¬ ∀ (p q : CellEdit) (sheet s₁ s₂ s₁₂ s₂₁ : Sheet), sheet.IsRegular → p.IsRegular →
      q.IsRegular → ¬ p.ConflictsWith q → p.apply sheet = .ok s₁ → q.apply sheet = .ok s₂ →
      q.apply s₁ = .ok s₁₂ → p.apply s₂ = .ok s₂₁ →
      ∀ id,
        ((s₁₂.cells.get? id).map fun c => { c with style := c.style.filter fun s => !s.isEmpty })
          = (s₂₁.cells.get? id).map fun c =>
              { c with style := c.style.filter fun s => !s.isEmpty } := by
  intro hcomm
  let sheet : Sheet := { cells := .ofList [("A1",
    { formula := some "", style := some (Style.empty.set .bold (.bool true)) })] }
  let p := restyle ⟨0, 0⟩ [("bold", .null)]
  let q := restyle ⟨0, 0⟩ [("italic", .bool true)]
  have hid : Address.toId ⟨0, 0⟩ = .ok "A1" := by decide +kernel
  have hp : p.IsKnown := by decide +kernel
  have hq : q.IsKnown := by decide +kernel
  have hconflict : ¬ p.ConflictsWith q := by
    rintro ⟨_, change, hchange, change', hchange', heq⟩
    rw [List.mem_singleton.mp hchange, List.mem_singleton.mp hchange'] at heq
    exact absurd heq (by decide)
  have happly : ∀ {edit : CellEdit} (sheet : Sheet), edit.IsKnown →
      edit.address.toId = .ok "A1" → edit.apply sheet
        = .ok ({ sheet with cells := edit.onCells "A1" sheet.cells }.recompute .builtins) :=
    fun sheet hknown hid => apply_eq_ok_iff.mpr ⟨hknown, "A1", hid, rfl⟩
  -- In one order the cell is dropped with its formula, in the other it stays.
  have hsame := hcomm p q sheet _ _ _ _ (by decide +kernel) trivial trivial hconflict
    (happly _ hp hid) (happly _ hq hid) (happly _ hq hid) (happly _ hp hid) "A1"
  exact absurd (congrArg (fun c => c.bind Cell.formula) hsame) (by decide +kernel)

end CellEdit

end Spreadsheet
