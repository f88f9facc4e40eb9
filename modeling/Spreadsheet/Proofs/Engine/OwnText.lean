import Spreadsheet.Proofs.Engine.Run

/-!
# Texts Typed In Again

Typing the text of a cell into it again changes nothing that shows.

When a cell is edited, the text that comes up is its formula, or else its literal
(`Cell.text`), and to leave the edit without changing the text is to type it in again.
The cell that this gives need not be the one before: it has no computed value yet, and
the literal that a cell may have beside its formula is gone. But it has the same formula,
the same literal if there is none, and the same style (`Cells.SameContent`), as long as
its kind is told by its text: formulas begin with an equals sign and literals do not. A
cell that holds nothing would be removed, and so is left out here.

The names stay in their places as well, so a recomputation comes to the same values for
all cells, those on cycles and behind them included. Then every comparison is one of a
value with itself, and finds no difference.

## Main definitions

* `Cell.text`, `Cells.textAt`: The text that comes up when a cell is edited.
* `Cell.IsTyped`, `Cells.AreTyped`: Cells whose kind is told by their text.
* `Cells.SameContent`: The same formulas, literals and styles under the same names.

## Theorems

* `Cell.content_ofText`: A cell that is typed in again has the same content.
* `Cells.sameContent_putText`: One text typed in again keeps the content of all cells.
* `Cells.sameContent_typed`: So do several.
* `Cells.SameContent.computedAt_eq`: The same content comes to the same values.
* `Change.between_eq_nil`: Cells with the same values have no changes between them.
* `Engine.recalculate_own_texts`: A recalculation of texts typed in again reports nothing
  and leaves all values as they were.
-/

namespace Spreadsheet

namespace Cell

/-- The text that comes up when the cell is edited: its formula, or else its literal. -/
def text (c : Cell) : String := c.formula?.getD c.value

/-- A cell is not empty, and its text tells whether it is a formula. -/
structure IsTyped (c : Cell) : Prop where
  /-- There is something in the cell. -/
  isEmpty : c.isEmpty = false
  /-- A formula begins with an equals sign. -/
  formula : ∀ formula, c.formula? = some formula → formula.toList.head? = some '='
  /-- A literal does not. -/
  literal : c.formula? = none → c.value.toList.head? ≠ some '='

/-- What shows of what was entered in a cell: its formula, its text and its style. -/
def content (c : Cell) : Option String × String × Option Style := (c.formula?, c.text, c.style)

instance (c : Cell) : Decidable c.IsTyped :=
  decidable_of_iff (c.isEmpty = false ∧ (∀ formula ∈ c.formula?, formula.toList.head? = some '=') ∧
      (c.formula? = none → c.value.toList.head? ≠ some '='))
    ⟨fun h => ⟨h.1, h.2.1, h.2.2⟩, fun h => ⟨h.isEmpty, h.formula, h.literal⟩⟩

variable {c c' : Cell}

theorem text_of_formula? {formula : String} (h : c.formula? = some formula) : c.text = formula := by
  rw [text, h, Option.getD_some]

theorem text_of_formula?_none (h : c.formula? = none) : c.text = c.value := by
  rw [text, h, Option.getD_none]

theorem isEmpty_eq (c : Cell) :
    c.isEmpty = (c.value.isEmpty && !c.formula?.isSome && !c.hasStyle) := rfl

/-- Whether there is anything in a cell shows in its content. -/
theorem isEmpty_eq_of_content (h : c.content = c'.content) : c.isEmpty = c'.isEmpty := by
  rcases Prod.mk.inj h with ⟨hformula, hrest⟩
  rcases Prod.mk.inj hrest with ⟨htext, hstyle⟩
  have hhas : c.hasStyle = c'.hasStyle := by rw [hasStyle, hasStyle, hstyle]
  rw [isEmpty_eq, isEmpty_eq, hhas, hformula]
  cases hformula' : c'.formula? with
  | some formula => rw [Option.isSome_some, Bool.not_true, Bool.and_false, Bool.and_false]
  | none =>
      rw [hformula'] at hformula
      rw [text_of_formula?_none hformula, text_of_formula?_none hformula'] at htext
      rw [htext]

theorem IsTyped.of_content (hc : c.IsTyped) (h : c'.content = c.content) : c'.IsTyped := by
  rcases Prod.mk.inj h with ⟨hformula, hrest⟩
  refine ⟨(isEmpty_eq_of_content h).trans hc.isEmpty, fun formula h' => ?_, fun hnone => ?_⟩
  · exact hc.formula formula (hformula ▸ h')
  · have hnone' := hformula ▸ hnone
    rw [← text_of_formula?_none hnone, (Prod.mk.inj hrest).1, text_of_formula?_none hnone']
    exact hc.literal hnone'

/-- A cell that is typed in again has the same content. -/
theorem content_ofText (h : c.IsTyped) : (ofText c.text c.style).content = c.content := by
  cases hformula : c.formula? with
  | some formula =>
      have hhead := h.formula formula hformula
      have hkept : (Option.some formula).filter (fun f => !f.isEmpty) = some formula := by
        rw [← hformula, formula?, Option.filter_filter]
        simp only [Bool.and_self]
      rw [text_of_formula? hformula, ofText, if_pos hhead, content, content,
        text_of_formula? hformula, hformula]
      have hsame : ({ formula := some formula, style := c.style } : Cell).formula? = some formula :=
        hkept
      rw [text_of_formula? hsame, hsame]
  | none =>
      have hhead := h.literal hformula
      rw [text_of_formula?_none hformula, ofText, if_neg hhead, content, content,
        text_of_formula?_none hformula, hformula]
      rfl

end Cell

namespace Cells

/-- The text that comes up when the cell with a name is edited. That of an absent cell is
    empty. -/
def textAt (cells : Cells) (id : String) : String := ((cells.get? id).map Cell.text).getD ""

/-- No cell is empty, and the text of each tells whether it is a formula. -/
def AreTyped (cells : Cells) : Prop := ∀ id c, cells.get? id = some c → c.IsTyped

instance (cells : Cells) : Decidable cells.AreTyped :=
  decidable_of_iff (∀ e ∈ cells.entries, e.2.IsTyped)
    ⟨fun h id c hget => h (id, c) ((OrderedMap.get?_eq_some_iff cells).mp hget),
      fun h e he => h e.1 e.2 ((OrderedMap.get?_eq_some_iff cells).mpr he)⟩

/-- Two collections of cells have the same names in the same order, and the same content
    under each. -/
structure SameContent (a b : Cells) : Prop where
  /-- The same cells are named, in the same order. -/
  keys : a.keys = b.keys
  /-- The same shows of what was entered in each. -/
  content : ∀ id, (a.get? id).map Cell.content = (b.get? id).map Cell.content

namespace SameContent

variable {a b c : Cells}

theorem refl (a : Cells) : SameContent a a := ⟨rfl, fun _ => rfl⟩

theorem trans (h : SameContent a b) (h' : SameContent b c) : SameContent a c :=
  ⟨h.keys.trans h'.keys, fun id => (h.content id).trans (h'.content id)⟩

theorem textAt_eq (h : SameContent a b) (id : String) : a.textAt id = b.textAt id := by
  have htext := congrArg (Option.map fun content => content.2.1) (h.content id)
  rw [Option.map_map, Option.map_map] at htext
  exact congrArg (Option.getD · "") htext

theorem areTyped (h : SameContent a b) (hb : b.AreTyped) : a.AreTyped := by
  intro id c hget
  have hcontent := h.content id
  rw [hget] at hcontent
  rcases Option.map_eq_some_iff.mp hcontent.symm with ⟨c', hget', hsame⟩
  exact (hb id c' hget').of_content hsame.symm

theorem formula?_eq (h : SameContent a b) (id : String) :
    (a.get? id).bind Cell.formula? = (b.get? id).bind Cell.formula? := by
  have hformula := congrArg (fun content => content.bind Prod.fst) (h.content id)
  simp only [Option.bind_map] at hformula
  exact hformula

/-- Where there is no formula, the text is the literal. -/
theorem sameTextsOn (h : SameContent a b) : SameTextsOn Set.univ a b where
  formula := fun id _ => h.formula?_eq id
  closed := fun _ _ _ _ id' _ => Set.mem_univ id'
  literal := fun id _ hnone => by
    have hnone' := (h.formula?_eq id).symm.trans hnone
    have hvalue : ∀ {cells : Cells}, (cells.get? id).bind Cell.formula? = none →
        (cells.get? id).map Cell.value = (cells.get? id).map Cell.text := by
      intro cells hnone
      refine Option.map_congr fun c hc => (Cell.text_of_formula?_none ?_).symm
      exact Option.bind_eq_none_iff.mp hnone c hc
    have htext := congrArg (Option.map fun content => content.2.1) (h.content id)
    rw [Option.map_map, Option.map_map] at htext
    rw [hvalue hnone, hvalue hnone']
    exact htext

theorem covered (h : SameContent a b) (hb : b.Covered) : a.Covered := by
  intro id c formula hget hformula
  have hsame := h.formula?_eq id
  rw [hget, Option.bind_some, hformula] at hsame
  rcases Option.bind_eq_some_iff.mp hsame.symm with ⟨c', hget', hformula'⟩
  exact hb id c' formula hget' hformula'

/-- The same content comes to the same values. -/
theorem computedAt_eq (h : SameContent a b) (functions : Registry) (hb : b.Covered)
    (id : String) :
    (a.recompute functions).computedAt id = (b.recompute functions).computedAt id :=
  h.sameTextsOn.computedAt_eq functions (h.covered hb) hb (Set.mem_univ id)

end SameContent

variable {cells : Cells}

/-- To take out a name that is absent changes nothing. -/
theorem SameContent.erase {id : String} (hget : cells.get? id = none) :
    SameContent (cells.erase id) cells where
  keys := by
    have hkey : id ∉ cells.keys := (OrderedMap.get?_eq_none_iff _ _).mp hget
    rw [OrderedMap.keys_erase, List.filter_eq_self]
    exact fun id' hid' => decide_eq_true fun heq => hkey (heq ▸ hid')
  content := fun id' => by
    by_cases hid : id' = id
    · rw [hid, OrderedMap.get?_erase_self, hget]
    · rw [OrderedMap.get?_erase_of_ne _ hid]

/-- A cell with the same content can take the place of another. -/
theorem SameContent.insert {id : String} {c c' : Cell} (hget : cells.get? id = some c)
    (h : c'.content = c.content) : SameContent (cells.insert id c') cells where
  keys := by
    rw [OrderedMap.keys_insert, if_pos ((OrderedMap.mem_keys_iff cells).mpr ⟨c, hget⟩)]
  content := fun id' => by
    by_cases hid : id' = id
    · rw [hid, OrderedMap.get?_insert_self, hget, Option.map_some, Option.map_some, h]
    · rw [OrderedMap.get?_insert_of_ne _ _ hid]

/-- One text typed in again keeps the content of all cells. -/
theorem sameContent_putText (h : cells.AreTyped) (id : String) :
    SameContent (cells.putText id (cells.textAt id)) cells := by
  rw [putText]
  cases hget : cells.get? id with
  | none =>
      -- An absent cell has no text, and stays absent.
      have hempty : (Cell.ofText (cells.textAt id) none).isEmpty = true := by
        rw [textAt, hget]
        decide
      simp only [Option.bind_none, if_pos hempty]
      exact .erase hget
  | some c =>
      have hc := h id c hget
      have hcontent := Cell.content_ofText hc
      have htext : cells.textAt id = c.text := by
        rw [textAt, hget]
        rfl
      have hfilled : ¬ (Cell.ofText c.text c.style).isEmpty = true := by
        rw [Cell.isEmpty_eq_of_content hcontent, hc.isEmpty]
        exact Bool.false_ne_true
      simp only [Option.bind_some, htext, if_neg hfilled]
      exact .insert hget hcontent

/-- Several texts typed in again keep the content of all cells. -/
theorem sameContent_typed (h : cells.AreTyped) {edits : List (String × String)}
    (hedits : ∀ edit ∈ edits, edit.2 = cells.textAt edit.1) :
    SameContent (cells.typed edits) cells := by
  induction edits generalizing cells with
  | nil => exact .refl cells
  | cons edit edits ih =>
      have hfirst : SameContent (cells.putText edit.1 edit.2) cells := by
        rw [hedits edit List.mem_cons_self]
        exact sameContent_putText h edit.1
      -- The first text changes none of the texts that come up after it.
      refine (ih (hfirst.areTyped h) fun edit' hedit' => ?_).trans hfirst
      rw [hfirst.textAt_eq]
      exact hedits edit' (List.mem_cons_of_mem _ hedit')

end Cells

/-- Cells with the same values have no changes between them. -/
theorem Change.between_eq_nil {tolerance : Number} (htolerance : tolerance.IsNonnegative)
    {before after : Cells} (hsame : ∀ id, after.computedAt id = before.computedAt id)
    {changes : List Change} (h : between tolerance before after = .ok changes) : changes = [] := by
  refine List.eq_nil_iff_forall_not_mem.mpr fun change hchange => ?_
  have hdiffers := differs_of_mem_between h hchange
  rw [hsame] at hdiffers
  exact Value.differs_self htolerance _ hdiffers

namespace Workbook

variable {functions : Registry} {book : Workbook}

theorem IsCalculated.recompute_eq (h : book.IsCalculated functions) :
    book.sheet.cells.recompute functions = book.sheet.cells := by
  rcases h with ⟨sheet, hcovered, rfl⟩
  exact Cells.recompute_recompute functions hcovered

/-- Texts typed in again leave the names and the values as they were. -/
theorem IsCalculated.edited_own_texts (h : book.IsCalculated functions)
    (htyped : book.sheet.cells.AreTyped) {edits : OrderedMap String String}
    (hedits : ∀ edit ∈ edits.entries, edit.2 = book.sheet.cells.textAt edit.1) :
    (book.edited functions edits).sheet.cells.keys = book.sheet.cells.keys ∧
      ∀ id, (book.edited functions edits).sheet.cells.computedAt id
        = book.sheet.cells.computedAt id := by
  have hcontent := Cells.sameContent_typed htyped hedits
  rw [cells_edited]
  refine ⟨(Cells.sameEntries_recompute functions _).keys.trans hcontent.keys, fun id => ?_⟩
  rw [hcontent.computedAt_eq functions h.covered, h.recompute_eq]

end Workbook

namespace Engine

/-- If cells of an engine have their own texts typed in again, then all values stay as
    they were, and nothing is reported as changed or propagated. There is a report if only
    cells were edited, unless the sheet fills the memory. -/
theorem recalculate_own_texts {engine : Engine} (hbuiltins : engine.functions = .builtins)
    (hcalculated : engine.Calculated) {sheet : Sheet} (hsheet : engine.snapshot = .ok sheet)
    (htyped : sheet.cells.AreTyped) {edits : OrderedMap String String}
    (hedits : ∀ edit ∈ edits.entries, (Address.ofId? edit.1).isSome = true →
      edit.2 = sheet.cells.textAt edit.1)
    {tolerance : Number} (htolerance : tolerance.IsNonnegative) :
    (∃ after, (engine.recalculate edits tolerance).2.snapshot = .ok after ∧
      after.cells.keys = sheet.cells.keys ∧
      ∀ id, after.cells.computedAt id = sheet.cells.computedAt id) ∧
    (∀ report, (engine.recalculate edits tolerance).1 = .ok report →
      report.changes = [] ∧ report.propagatedCount = 0) ∧
    ((∀ id ∈ edits.keys, (Address.ofId? id).isSome = true) → sheet.cells.IsSmall →
      ∃ report, (engine.recalculate edits tolerance).1 = .ok report) := by
  rcases hcalculated.exists_book with ⟨book, hbook, hbookCalculated⟩
  have hbookSheet : book.sheet = sheet := by
    rw [snapshot, loaded, hbook] at hsheet
    exact Except.ok.inj hsheet
  rw [← hbookSheet] at htyped hedits ⊢
  cases hfind : edits.keys.find? (fun id => (Address.ofId? id).isNone) with
  | some id =>
      -- Nothing is done at all.
      rw [recalculate_of_not_cell hbook hfind]
      refine ⟨⟨book.sheet, ?_, rfl, fun _ => rfl⟩, fun report hreport => ?_, ?_⟩
      · rw [snapshot, loaded, hbook]
        rfl
      · cases hreport
      · intro hids _
        rw [find?_eq_none_iff_isSome.mpr hids] at hfind
        cases hfind
  | none =>
      have hids := find?_eq_none_iff_isSome.mp hfind
      rcases hbookCalculated.edited_own_texts htyped fun edit hedit =>
        hedits edit hedit (hids edit.1 (List.mem_map_of_mem hedit)) with ⟨hkeys, hvalues⟩
      refine ⟨⟨_, by rw [recalculate_of_cells hbook hfind]; rfl, hkeys, hvalues⟩,
        fun report hreport => ?_, fun _ hsmall => ?_⟩
      · rw [recalculate_of_cells hbook hfind] at hreport
        rcases exists_of_bind hreport with ⟨changes, hbetween, hchanges⟩
        rw [← Except.ok.inj hchanges, Change.between_eq_nil htolerance hvalues hbetween]
        exact ⟨rfl, rfl⟩
      · -- What can be compared before can be compared after.
        have hbefore : book.sheet.cells.AreComparable := by
          rw [← hbookCalculated.recompute_eq, hbuiltins]
          refine Cells.areComparable_recompute Registry.keepsComparable_builtins
            hbookCalculated.covered hsmall
        exact exists_report hbook hfind tolerance hbefore fun id v hv =>
          hbefore id v ((hvalues id).symm.trans hv)

/-- A number, a formula with an old literal beside it, a cycle, an error and a cell with a
    style only are typed in again, and so is a cell that is absent. -/
theorem recalculate_own_texts_cycle :
    let sheet : Sheet := { cells := .ofList [("A1", { value := " 2.50" }),
      ("B1", { value := "=old", formula := some "=A1*2" }), ("C1", { formula := some "=C1+B1" }),
      ("D1", { formula := some "=1/0" }), ("E1", { style := some (Style.empty.set .bold (.bool true)) })] }
    let engine : Engine := ⟨.builtins, some ((Workbook.ofSheet sheet).calculate .builtins)⟩
    let edits : OrderedMap String String := .ofList [("C1", "=C1+B1"), ("B1", "=A1*2"),
      ("A1", " 2.50"), ("E1", ""), ("Z9", "")]
    (sheet.recompute .builtins).cells.AreTyped ∧
      (∀ edit ∈ edits.entries, (Address.ofId? edit.1).isSome = true →
        edit.2 = (sheet.recompute .builtins).cells.textAt edit.1) ∧
      defaultTolerance.IsNonnegative ∧
      (∃ after, (engine.recalculate edits defaultTolerance).2.snapshot = .ok after ∧
        ∀ id, after.cells.computedAt id = (sheet.recompute .builtins).cells.computedAt id) ∧
      ∃ report, (engine.recalculate edits defaultTolerance).1 = .ok report ∧
        report.changes = [] ∧ report.propagatedCount = 0 := by
  intro sheet engine edits
  have hcalculated : engine.Calculated :=
    @Calculated.load ⟨.builtins, none⟩ engine sheet (by decide +kernel) rfl
  have hsheet : engine.snapshot = .ok (sheet.recompute .builtins) := rfl
  have htyped : (sheet.recompute .builtins).cells.AreTyped := by decide +kernel
  have hedits : ∀ edit ∈ edits.entries, (Address.ofId? edit.1).isSome = true →
      edit.2 = (sheet.recompute .builtins).cells.textAt edit.1 := by decide +kernel
  have htolerance : defaultTolerance.IsNonnegative := by decide +kernel
  rcases recalculate_own_texts rfl hcalculated hsheet htyped hedits htolerance with
    ⟨⟨after, hafter, _, hvalues⟩, hchanges, hreport⟩
  rcases hreport (by decide +kernel) (by decide +kernel) with ⟨report, hreport⟩
  exact ⟨htyped, hedits, htolerance, ⟨after, hafter, hvalues⟩, report, hreport,
    hchanges report hreport⟩

end Engine

end Spreadsheet
