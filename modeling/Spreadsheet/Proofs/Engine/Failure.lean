import Spreadsheet.Proofs.Engine.Run

/-!
# Failed Recalculations

What a recalculation that gives no report leaves behind.

There are three ways to fail. Without a sheet, or with an edit of what is no cell,
nothing has happened yet, and the engine is as it was. But the values are compared
only after the edited workbook was put in place, and where a comparison fails it
stays there. So an engine takes back what it did exactly if there was nothing to
take back: if all values can be compared, or if the edits left the workbook as it
was.

Only numbers beyond the doubles cannot be compared. No builtin function comes to
one, but another function can, and a document may bring one along.

## Theorems

* `Engine.report_eq_error_iff`: When there is no report.
* `Engine.recalculate_of_areBeyond`: The edits are done although there is no report.
* `Engine.recalculate_error_keeps_iff`: When a failure leaves the engine as it was.
* `Engine.not_recalculate_error_keeps`: It does not always.
-/

namespace Spreadsheet

namespace Engine

variable {engine : Engine} {book : Workbook} {edits : OrderedMap String String}

/-- There is no report if there are values that cannot be compared. -/
theorem report_eq_error_iff {tolerance : Number} {before after : Workbook} {e : EngineError} :
    report edits tolerance before after = .error e ↔
      e = .beyondDoubles ∧ ∃ id, Value.AreBeyond (before.sheet.cells.computedAt id)
        (after.sheet.cells.computedAt id) := by
  rw [← @Change.between_eq_error_iff tolerance, report]
  cases Change.between tolerance before.sheet.cells after.sheet.cells with
  | error e' =>
      exact ⟨fun h => congrArg _ (Except.error.inj h), fun h => congrArg _ (Except.error.inj h)⟩
  | ok changes => exact iff_of_false (fun h => by cases h) (fun h => by cases h)

/-- The edits are done although there is no report. -/
theorem recalculate_of_areBeyond (hbook : engine.book = some book)
    (hids : edits.keys.find? (fun id => (Address.ofId? id).isNone) = none) (tolerance : Number)
    (hbeyond : ∃ id, Value.AreBeyond (book.sheet.cells.computedAt id)
      ((book.edited engine.functions edits).sheet.cells.computedAt id)) :
    engine.recalculate edits tolerance
      = (.error .beyondDoubles,
          { engine with book := some (book.edited engine.functions edits) }) := by
  rw [recalculate_of_cells hbook hids, report_eq_error_iff.mpr ⟨rfl, hbeyond⟩]

/-- A failed recalculation leaves the engine as it was exactly if no edit of cells was
    done, or the values after it can be compared with those before, or nothing came of
    it. -/
theorem recalculate_error_keeps_iff (engine : Engine) (edits : OrderedMap String String)
    (tolerance : Number) :
    (∀ e, (engine.recalculate edits tolerance).1 = .error e →
        (engine.recalculate edits tolerance).2 = engine) ↔
      ∀ book, engine.book = some book → (∀ id ∈ edits.keys, (Address.ofId? id).isSome = true) →
        (∃ id, Value.AreBeyond (book.sheet.cells.computedAt id)
          ((book.edited engine.functions edits).sheet.cells.computedAt id)) →
        book.edited engine.functions edits = book := by
  constructor
  · intro hkeeps book hbook hids hbeyond
    -- The edits are done and the comparison fails, so what is left is the edited workbook.
    have hresult := recalculate_of_areBeyond hbook (find?_eq_none_iff_isSome.mpr hids) tolerance
      hbeyond
    have hsame := hkeeps .beyondDoubles (by rw [hresult])
    rw [hresult] at hsame
    exact Option.some.inj ((congrArg Engine.book hsame).trans hbook)
  · intro hsame e herror
    cases hbook : engine.book with
    | none => rw [recalculate, loaded, hbook]
    | some book =>
        -- Of the errors, only that of the comparison comes after the edits.
        cases hfind : edits.keys.find? (fun id => (Address.ofId? id).isNone) with
        | some id => rw [recalculate_of_not_cell hbook hfind]
        | none =>
            rw [recalculate_of_cells hbook hfind] at herror ⊢
            rw [hsame book hbook (find?_eq_none_iff_isSome.mp hfind)
              (report_eq_error_iff.mp herror).2, ← hbook]

/-- A function whose result is beyond the doubles makes every later recalculation
    fail, after the edits are done. -/
theorem not_recalculate_error_keeps :
    ¬ ∀ (engine : Engine) (edits : OrderedMap String String) (tolerance : Number) (e : EngineError),
      (engine.recalculate edits tolerance).1 = .error e →
        (engine.recalculate edits tolerance).2 = engine := by
  intro hkeeps
  let functions :=
    Registry.builtins.register "BIG" fun _ => .ok (some (.number (.whole (10 ^ 309))))
  let sheet : Sheet := { cells := .ofList [("A1", { formula := some "=BIG()" })] }
  let book := (Workbook.ofSheet sheet).calculate functions
  let engine : Engine := ⟨functions, some book⟩
  let edits : OrderedMap String String := .ofList [("B1", "5")]
  have hbeyond : Value.AreBeyond (book.sheet.cells.computedAt "A1")
      ((book.edited functions edits).sheet.cells.computedAt "A1") :=
    ⟨.whole (10 ^ 309), .whole (10 ^ 309), by decide +kernel, by decide +kernel,
      Or.inl (by decide +kernel)⟩
  have hbook : engine.book = some book := rfl
  have hids : edits.keys.find? (fun id => (Address.ofId? id).isNone) = none := by decide +kernel
  have hresult := recalculate_of_areBeyond hbook hids defaultTolerance ⟨"A1", hbeyond⟩
  have hsame := hkeeps engine edits defaultTolerance .beyondDoubles (by rw [hresult])
  rw [hresult] at hsame
  -- The cell that was typed into is there afterwards.
  have hcell : (book.edited functions edits).sheet.cells.contains "B1"
      = book.sheet.cells.contains "B1" := by
    rw [Option.some.inj (congrArg Engine.book hsame)]
  exact absurd hcell (by decide +kernel)

end Engine

end Spreadsheet
