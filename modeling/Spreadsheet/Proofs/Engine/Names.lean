import Spreadsheet.Proofs.Dependency.Sheet
import Spreadsheet.Proofs.Document.Place
import Spreadsheet.Proofs.Engine.Run

/-!
# One Name for Each Cell

Which edits keep two cells of an engine from having one address.

An engine takes an edit of everything that is read as a name, and keeps the text under
the name as it was given. Under canonical names this is the same as to edit the cell
at a position: however often the engine is edited and calculated, its cells have
canonical names, so they are apart and all of them stand in the document of the sheet.
Under another name it is not. The name denotes the address of a cell with a canonical
name, the engine keeps both, and where their texts differ the document loses one.

So the edits that can be allowed, if no cell is to be lost, are exactly those of cells
by their canonical names. The argument from left to right makes a sheet with one cell,
and an edit of it by the other name.

## Main definitions

* `Engine.EditedIn`: The engines that are calculated and edited under certain names.
* `Engine.KeepsCells`: The cells of an engine are apart, and all are written.

## Theorems

* `Cells.isCanonical_typed`: Edits under canonical names keep the names canonical.
* `Cells.AreLiteral.areComparable_recompute`: Cells without formulas can be compared.
* `Engine.EditedIn.exists_book`: A whole run keeps the names canonical.
* `Engine.EditedIn.exists_typed`: An edit of a sheet without formulas is done.
* `Engine.exists_shared`: An edit under another name can give an address to two cells.
* `Engine.keepsCells_iff`: Which names keep the cells of all engines.
* `Engine.not_keepsCells_leading_zero`: A name with a zero in front of the number does not.
-/

namespace Spreadsheet

namespace Cells

variable {cells : Cells} {functions : Registry}

/-- A text typed in under a canonical name keeps the names canonical. -/
theorem isCanonical_putText (h : ∀ id ∈ cells.keys, Address.IsCanonical id) {id : String}
    (hid : Address.IsCanonical id) (text : String) :
    ∀ id' ∈ (cells.putText id text).keys, Address.IsCanonical id' := by
  intro id' hid'
  by_cases heq : id' = id
  · rwa [heq]
  · -- Another name was there before.
    rw [OrderedMap.mem_keys_iff, get?_putText_of_ne cells text heq,
      ← OrderedMap.mem_keys_iff] at hid'
    exact h id' hid'

/-- Edits under canonical names keep the names canonical. -/
theorem isCanonical_typed (h : ∀ id ∈ cells.keys, Address.IsCanonical id)
    {edits : List (String × String)} (hids : ∀ edit ∈ edits, Address.IsCanonical edit.1) :
    ∀ id ∈ (cells.typed edits).keys, Address.IsCanonical id := by
  induction edits generalizing cells with
  | nil => exact h
  | cons edit edits ih =>
      exact ih (isCanonical_putText h (hids edit List.mem_cons_self) edit.2)
        fun edit' hedit' => hids edit' (List.mem_cons_of_mem _ hedit')

/-- No cell has a formula. -/
def AreLiteral (cells : Cells) : Prop := ∀ id, (cells.get? id).bind Cell.formula? = none

theorem AreLiteral.recompute (h : cells.AreLiteral) (functions : Registry) :
    (cells.recompute functions).AreLiteral :=
  fun id => (formula?_of_entry (sameEntries_recompute functions cells).entry id).trans (h id)

/-- Typing a text that is no formula gives no cell a formula. -/
theorem AreLiteral.putText (h : cells.AreLiteral) (id : String) {text : String}
    (htext : text.toList.head? ≠ some '=') : (cells.putText id text).AreLiteral := by
  intro id'
  by_cases hid : id' = id
  · rw [hid, get?_putText_self, Option.bind_eq_none_iff]
    intro c hc
    rw [← Option.some.inj (Option.ite_none_left_eq_some.mp hc).2, Option.eq_none_iff_forall_ne_some]
    -- The cell holds the text, and a formula in it would begin with an equals sign.
    intro formula hformula
    exact htext (Cell.formula?_ofText hformula).1
  · rw [get?_putText_of_ne cells text hid]
    exact h id'

/-- Cells without formulas come to no number beyond the doubles. -/
theorem AreLiteral.areComparable_recompute (h : cells.AreLiteral) (functions : Registry) :
    (cells.recompute functions).AreComparable := by
  have hcovered : cells.Covered := by
    intro id c formula hget hformula
    have hnone := h id
    rw [hget, Option.bind_some, hformula] at hnone
    cases hnone
  intro id v hv
  refine isComparable_of_not_mem_keys hcovered (fun hkey => ?_) hv
  rcases DependencyGraph.mem_keys_ofCells_iff.mp hkey with ⟨formula, hformula⟩
  rw [h id] at hformula
  cases hformula

theorem value_recompute (functions : Registry) (cells : Cells) (id : String) :
    ((cells.recompute functions).get? id).map Cell.value = (cells.get? id).map Cell.value := by
  have hentry := congrArg (Option.map Cell.value) ((sameEntries_recompute functions cells).entry id)
  rwa [Option.map_map, Option.map_map] at hentry

/-- A cell that a literal was typed into holds it. -/
theorem value_putText_self (cells : Cells) (id : String) {text : String}
    (hempty : text.isEmpty = false) (htext : text.toList.head? ≠ some '=') :
    ((cells.putText id text).get? id).map Cell.value = some text := by
  rw [get?_putText_self]
  simp only [Cell.ofText, if_neg htext, Cell.isEmpty, hempty, Bool.false_and, Bool.false_eq_true,
    if_false, Option.map_some]

end Cells

namespace Engine

/-- The engines into which a sheet with canonical names was loaded and which were
    calculated since, and edited under names of a certain set with success. -/
inductive EditedIn (names : Set String) : Engine → Prop where
  | load (engine : Engine) {sheet : Sheet}
    (hids : ∀ id ∈ sheet.cells.keys, Address.IsCanonical id) : EditedIn names (engine.load sheet)
  | calculate {engine after : Engine} (h : EditedIn names engine)
    (hafter : engine.calculate = .ok after) : EditedIn names after
  /-- Texts are typed into cells. -/
  | recalculate {engine : Engine} (h : EditedIn names engine) {edits : OrderedMap String String}
    (hnames : ∀ id ∈ edits.keys, id ∈ names) {tolerance : Number} {report : Report}
    (hreport : (engine.recalculate edits tolerance).1 = .ok report) :
    EditedIn names (engine.recalculate edits tolerance).2

/-- The cells of an engine are apart, and all that was entered in them stands in the
    document of the sheet. -/
def KeepsCells (engine : Engine) : Prop :=
  ∃ sheet, engine.snapshot = .ok sheet ∧ sheet.cells.AreApart ∧ sheet.IsWrittenWhole

variable {engine : Engine} {names : Set String}

theorem snapshot_of_book {book : Workbook} (hbook : engine.book = some book) :
    engine.snapshot = .ok book.sheet := by
  rw [snapshot, loaded, hbook]
  rfl

theorem keys_calculate (functions : Registry) (book : Workbook) :
    (book.calculate functions).sheet.cells.keys = book.sheet.cells.keys :=
  (Cells.sameEntries_calculate functions book.graph book.sheet.cells).keys

theorem keys_edited (functions : Registry) (book : Workbook) (edits : OrderedMap String String) :
    (book.edited functions edits).sheet.cells.keys
      = (book.sheet.cells.typed edits.entries).keys := by
  rw [Workbook.cells_edited, (Cells.sameEntries_recompute functions _).keys]

/-- Edits under canonical names keep the names in an engine canonical. -/
theorem EditedIn.exists_book (h : EditedIn names engine)
    (hcanonical : ∀ id ∈ names, (Address.ofId? id).isSome = true → Address.IsCanonical id) :
    ∃ book, engine.book = some book ∧ ∀ id ∈ book.sheet.cells.keys, Address.IsCanonical id := by
  induction h with
  | load engine hids =>
      rename_i sheet
      refine ⟨_, rfl, fun id hid => hids id ?_⟩
      rwa [← (Cells.sameEntries_resolveLiterals sheet.cells).keys]
  | calculate _ hafter ih =>
      rename_i engine after
      rcases ih with ⟨book, hbook, hids⟩
      rw [Engine.calculate, loaded, hbook] at hafter
      rw [← Except.ok.inj hafter]
      refine ⟨_, rfl, fun id hid => hids id ?_⟩
      rwa [keys_calculate] at hid
  | recalculate _ hnames hreport ih =>
      rename_i engine edits tolerance report
      rcases ih with ⟨book, hbook, hids⟩
      -- There is a report, so every name that was edited is that of a cell.
      have hfind := find?_eq_none_of_report hbook hreport
      rw [recalculate_of_cells hbook hfind]
      refine ⟨_, rfl, fun id hid => ?_⟩
      rw [keys_edited] at hid
      refine Cells.isCanonical_typed hids (fun edit hedit => ?_) id hid
      have hkey : edit.1 ∈ edits.keys := List.mem_map_of_mem hedit
      have hsome := find?_eq_none_iff_isSome.mp hfind edit.1 hkey
      exact hcanonical edit.1 (hnames edit.1 hkey) hsome

/-- A literal that is typed into one cell of a sheet without formulas is done, and there
    is a report of it. -/
theorem EditedIn.exists_typed (h : EditedIn names engine) {book : Workbook}
    (hbook : engine.book = some book) {cells : Cells} (hliteral : cells.AreLiteral)
    (hcells : book.sheet.cells = cells.recompute engine.functions) {id text : String}
    (hid : id ∈ names) (hsome : (Address.ofId? id).isSome = true)
    (htext : text.toList.head? ≠ some '=') :
    ∃ after sheet, EditedIn names after ∧ after.snapshot = .ok sheet ∧
      sheet.cells
        = ((cells.recompute engine.functions).putText id text).recompute engine.functions := by
  have hkeys : (OrderedMap.ofList [(id, text)]).keys = [id] := rfl
  have hfind : (OrderedMap.ofList [(id, text)]).keys.find?
      (fun id => (Address.ofId? id).isNone) = none := by
    refine find?_eq_none_iff_isSome.mpr fun id' hid' => ?_
    rw [hkeys, List.mem_singleton] at hid'
    rwa [hid']
  have hedited : (book.edited engine.functions (.ofList [(id, text)])).sheet.cells
      = ((cells.recompute engine.functions).putText id text).recompute engine.functions := by
    rw [Workbook.cells_edited, hcells]
    rfl
  -- Both before and after there are only literals, which can be compared.
  have hbefore : book.sheet.cells.AreComparable := by
    rw [hcells]
    exact hliteral.areComparable_recompute engine.functions
  have hafter : (book.edited engine.functions (.ofList [(id, text)])).sheet.cells.AreComparable := by
    rw [hedited]
    exact ((hliteral.recompute engine.functions).putText id htext).areComparable_recompute _
  rcases exists_report hbook hfind defaultTolerance hbefore hafter with ⟨report, hreport⟩
  have hrun := h.recalculate (fun id' hid' => by rwa [List.mem_singleton.mp hid']) hreport
  rw [recalculate_of_cells hbook hfind] at hrun
  exact ⟨_, _, hrun, snapshot_of_book rfl, hedited⟩

/-- A sheet with one literal under a canonical name, and another one typed in under
    another name. -/
theorem exists_pair {id other : String} (hid : id ∈ names)
    (hsome : (Address.ofId? id).isSome = true) (hother : Address.IsCanonical other)
    (hne : other ≠ id) :
    ∃ engine sheet, EditedIn names engine ∧ engine.snapshot = .ok sheet ∧
      (sheet.cells.get? other).map Cell.value = some "1" ∧
      (sheet.cells.get? id).map Cell.value = some "2" := by
  obtain ⟨sheet, hsheet⟩ : ∃ sheet : Sheet, sheet.cells = (∅ : Cells).putText other "1" :=
    ⟨{ cells := _ }, rfl⟩
  have hliteral : sheet.cells.AreLiteral := by
    rw [hsheet]
    exact Cells.AreLiteral.putText (fun _ => rfl) other (by decide)
  have hids : ∀ id' ∈ sheet.cells.keys, Address.IsCanonical id' := by
    rw [hsheet]
    exact Cells.isCanonical_putText (fun _ hmem => by cases hmem) hother "1"
  have hrun : EditedIn names _ :=
    .calculate (.load ⟨.builtins, none⟩ hids) (calculate_load _ sheet)
  have htext : "2".toList.head? ≠ some '=' := by decide
  -- The second literal is typed into the engine with the first one.
  rcases hrun.exists_typed rfl hliteral (Workbook.cells_calculate_ofSheet _ sheet) hid hsome
    htext with ⟨engine, after, hedited, hsnapshot, hcells⟩
  refine ⟨engine, after, hedited, hsnapshot, ?_, ?_⟩
  · rw [hcells, Cells.value_recompute, Cells.get?_putText_of_ne _ _ hne, Cells.value_recompute,
      hsheet]
    exact Cells.value_putText_self ∅ other (by decide) (by decide)
  · rw [hcells, Cells.value_recompute]
    exact Cells.value_putText_self _ id (by decide) htext

/-- An edit under a name that is not canonical can give the address of a cell to
    another one, and then one of them is lost. -/
theorem exists_shared {id : String} (hid : id ∈ names) (hsome : (Address.ofId? id).isSome = true)
    (hnot : ¬ Address.IsCanonical id) :
    ∃ engine sheet, EditedIn names engine ∧ engine.snapshot = .ok sheet ∧
      ¬ sheet.cells.AreApart ∧ ¬ sheet.IsWrittenWhole := by
  rcases Option.isSome_iff_exists.mp hsome with ⟨a, ha⟩
  rcases Address.nonneg_of_ofId? ha with ⟨hrow, hcol⟩
  -- The canonical name of the address is another one.
  have hcanonical := Address.isCanonical_cellId a.row.toNat a.col.toNat
  have hother := Address.ofId?_cellId a.row.toNat a.col.toNat
  rw [Int.toNat_of_nonneg hrow, Int.toNat_of_nonneg hcol] at hother
  have hne : Address.cellId a.row.toNat a.col.toNat ≠ id := fun heq => hnot (heq ▸ hcanonical)
  rcases exists_pair hid hsome hcanonical hne with ⟨engine, sheet, hrun, hsheet, hfirst, hsecond⟩
  rcases Option.map_eq_some_iff.mp hfirst with ⟨c, hget, hvalue⟩
  rcases Option.map_eq_some_iff.mp hsecond with ⟨c', hget', hvalue'⟩
  refine ⟨engine, sheet, hrun, hsheet, fun hapart => ?_, ?_⟩
  · exact hne (hapart _ ((OrderedMap.mem_keys_iff _).mpr ⟨c, hget⟩) _
      ((OrderedMap.mem_keys_iff _).mpr ⟨c', hget'⟩) a hother ha)
  · have htexts : "1" ≠ "" ∧ "2" ≠ "" ∧ "1" ≠ "2" := by decide
    rw [← hvalue, ← hvalue'] at htexts
    exact Sheet.not_isWrittenWhole_of_shared hget hget' hother ha htexts.1 htexts.2.1 htexts.2.2

/-- No cell of any engine is lost, whatever is edited under the names of a set, exactly
    if those that are names of cells are canonical. -/
theorem keepsCells_iff (names : Set String) :
    (∀ engine, EditedIn names engine → engine.KeepsCells) ↔
      ∀ id ∈ names, (Address.ofId? id).isSome = true → Address.IsCanonical id := by
  constructor
  · intro hkeeps id hid hsome
    by_contra hnot
    -- A name that is not canonical leads to two cells with one address.
    rcases exists_shared hid hsome hnot with ⟨engine, sheet, hrun, hsheet, hshared, _⟩
    rcases hkeeps engine hrun with ⟨sheet', hsheet', hapart, _⟩
    rw [hsheet, Except.ok.injEq] at hsheet'
    rw [← hsheet'] at hapart
    exact hshared hapart
  · intro hcanonical engine hrun
    rcases hrun.exists_book hcanonical with ⟨book, hbook, hids⟩
    have hapart := Cells.areApart_of_isCanonical hids
    refine ⟨book.sheet, snapshot_of_book hbook, hapart, ?_⟩
    refine Sheet.isWrittenWhole_of_areApart hapart fun id hid => ?_
    rcases Address.exists_toId_of_isCanonical (hids id hid) with ⟨a, ha, _⟩
    rw [ha]
    rfl

/-- A name with a zero in front of the number makes two cells of one address, and one
    of them is lost. -/
theorem not_keepsCells_leading_zero :
    ¬ ∀ engine, EditedIn Set.univ engine → engine.KeepsCells := by
  intro hkeeps
  rcases exists_shared (Set.mem_univ "A01") (by decide) (by decide +kernel) with
    ⟨engine, sheet, hrun, hsheet, _, hlost⟩
  rcases hkeeps engine hrun with ⟨sheet', hsheet', _, hwhole⟩
  rw [hsheet, Except.ok.injEq] at hsheet'
  rw [← hsheet'] at hwhole
  exact hlost hwhole

end Engine

end Spreadsheet
