import Spreadsheet.Recompute

/-!
# Engines

A sheet that is kept, edited and reported on.

An engine holds a sheet and its dependency graph. It evaluates the formulas on
demand, takes several edits at once, and then says which values are different,
how far the edits reached, and which cells lie on or behind a cycle. Until a
sheet is loaded, it can only evaluate formulas over empty cells.

Two numbers count as different if they are further apart than a tolerance; any
two other values, if their texts or their kinds differ. The comparison is made
on doubles, so a whole number beyond all of them cannot be compared, and then
there is no report although the edits are done.

## Main definitions

* `EngineTask`, `EngineError`: What an engine is asked for, and why it refused.
* `Value.differs`: Whether two values count as different.
* `Change`, `Report`: What a recalculation found.
* `Engine`: A set of functions, and a sheet once one is loaded.
* `Engine.load`, `Engine.calculate`, `Engine.recalculate`, `Engine.snapshot`,
  `Engine.evaluate`: What an engine does.
-/

namespace Spreadsheet

/-- What an engine does with the sheet that was loaded. -/
inductive EngineTask where
  | calculate
  | recalculate
  | snapshot
deriving DecidableEq, Repr

namespace EngineTask

/-- The name of a task in a message. -/
def name : EngineTask → String
  | calculate => "calculate"
  | recalculate => "recalculate"
  | snapshot => "snapshot"

end EngineTask

/-- Why an engine refused. -/
inductive EngineError where
  /-- A task that needs a sheet was asked for before one was loaded. -/
  | notLoaded (task : EngineTask)
  | badCellId (id : String)
  /-- A value that is beyond the doubles was to be compared. -/
  | beyondDoubles
deriving DecidableEq, Repr

namespace EngineError

/-- The text shown for an error, where it has one. -/
def message? : EngineError → Option String
  | notLoaded task => some ("Call load() before " ++ task.name ++ "()")
  | badCellId id => some ("Invalid cell id: " ++ Text.quote id)
  | beyondDoubles => none

end EngineError

namespace Value

/-- Whether two values other than two numbers have the same content. An error and a
    text with its code have. -/
def sameContent : Value → Value → Bool
  | text s, text t => s == t
  | text s, error t => s == t
  | error s, text t => s == t
  | error s, error t => s == t
  | bool a, bool b => a == b
  | range r, range s => r == s
  | _, _ => false

/-- The double that a number is compared by. -/
def comparable (n : Number) : Except EngineError Float :=
  match n.toFloat? with
  | some x => .ok x
  | none => .error .beyondDoubles

/-- Whether two values, either of which may be missing, count as different. -/
def differs (tolerance : Number) (a b : Option Value) : Except EngineError Bool :=
  match a, b with
  | none, none => .ok false
  | none, some _ => .ok true
  | some _, none => .ok true
  | some (number m), some (number n) => do
    let x ← comparable m
    let y ← comparable n
    pure (tolerance.exceededBy (x - y).abs)
  | some a, some b => .ok (!sameContent a b)

end Value

/-- A cell whose value is different after a recalculation. -/
structure Change where
  id : String
  old : Option Value
  new : Option Value
  /-- The formula after, if there is one. -/
  formula : Option String

/-- What a recalculation found. -/
structure Report where
  /-- The texts that were typed in, by cell. -/
  edits : OrderedMap String String
  /-- The cells whose values are different, row by row. -/
  changes : List Change
  formulaCount : Nat
  /-- The number of formulas that came to a different value without being edited. -/
  propagatedCount : Nat
  /-- The length of the longest chain of formulas that an edit reaches. -/
  chainDepth : Nat
  /-- The formulas that lie on or behind a cycle. -/
  circular : List String

namespace Report

/-- The part of the formulas that the edits reached: zero if there are none. -/
def propagationRatio (report : Report) : Float :=
  if report.formulaCount = 0 then 0
  else Float.ofNat report.propagatedCount / Float.ofNat report.formulaCount

end Report

/-- A sheet with its dependency graph. -/
structure Workbook where
  /-- The sheet, with the values found so far. -/
  sheet : Sheet
  graph : DependencyGraph
  /-- The formulas that the last calculation found on or behind a cycle. -/
  circular : List String

namespace Workbook

/-- A sheet with the values of its literals and its dependency graph. -/
def ofSheet (sheet : Sheet) : Workbook where
  sheet := { sheet with cells := sheet.cells.resolveLiterals }
  graph := .ofCells sheet.cells
  circular := []

/-- The workbook with the values of all formulas. -/
def calculate (functions : Registry) (book : Workbook) : Workbook :=
  { book with
    sheet := { book.sheet with cells := book.sheet.cells.calculate functions book.graph }
    circular := book.graph.blocked }

/-- The values of the formulas, by cell. -/
def results (book : Workbook) : List (String × Value) :=
  book.graph.formulas.keys.filterMap fun id =>
    ((book.sheet.cells.get? id).bind Cell.computed).map fun v => (id, v)

/-- The workbook after texts are typed into some of its cells and every value is
    found anew. -/
def edited (functions : Registry) (book : Workbook) (edits : OrderedMap String String) :
    Workbook :=
  let cells := edits.entries.foldl (fun cells (id, text) => cells.putText id text) book.sheet.cells
  (ofSheet { book.sheet with cells }).calculate functions

end Workbook

namespace Change

/-- The order of changes: by row and column, cells without an address first, and
    by name where that decides nothing. -/
def precedes (id id' : String) : Bool :=
  let a := (Address.ofId? id).getD ⟨-1, -1⟩
  let b := (Address.ofId? id').getD ⟨-1, -1⟩
  a.row < b.row ∨ (a.row = b.row ∧ (a.col < b.col ∨ (a.col = b.col ∧ id ≤ id')))

/-- The names in either of two sets of cells, in the order of changes. -/
def idsOf (before after : Cells) : List String :=
  (before.keys ++ after.keys.filter fun id => !before.contains id).mergeSort precedes

/-- The change of one cell, if its value is different. -/
def ofCell? (tolerance : Number) (before after : Cells) (id : String) :
    Except EngineError (Option Change) := do
  let old := (before.get? id).bind Cell.computed
  let new := (after.get? id).bind Cell.computed
  if ← Value.differs tolerance old new then
    pure (some { id, old, new, formula := (after.get? id).bind Cell.formula })
  else pure none

/-- The changes between two sets of cells. -/
def between (tolerance : Number) (before after : Cells) : Except EngineError (List Change) := do
  let found ← (idsOf before after).mapM (ofCell? tolerance before after)
  pure (found.filterMap fun change => change)

/-- Whether a change reached a formula that was not edited. -/
def isPropagated (edits : OrderedMap String String) (change : Change) : Bool :=
  ((change.formula.map fun f => !f.isEmpty).getD false) && !edits.contains change.id

end Change

/-- A set of functions, and a sheet once one is loaded. -/
structure Engine where
  functions : Registry
  book : Option Workbook := none

namespace Engine

/-- The difference between values that is passed over, unless another is given. -/
def defaultTolerance : Number := .float 1e-10

/-- The engine with a sheet, of which only the literals have values. -/
def load (engine : Engine) (sheet : Sheet) : Engine :=
  { engine with book := some (.ofSheet sheet) }

/-- The sheet that was loaded, for a task that needs one. -/
def loaded (engine : Engine) (task : EngineTask) : Except EngineError Workbook :=
  match engine.book with
  | some book => .ok book
  | none => .error (.notLoaded task)

/-- The engine after the formulas are evaluated. -/
def calculate (engine : Engine) : Except EngineError Engine := do
  let book ← engine.loaded .calculate
  pure { engine with book := some (book.calculate engine.functions) }

/-- The values of the formulas, by cell. -/
def results (engine : Engine) : List (String × Value) :=
  (engine.book.map Workbook.results).getD []

/-- What is found when a workbook is replaced by an edited one. -/
def report (edits : OrderedMap String String) (tolerance : Number) (before after : Workbook) :
    Except EngineError Report := do
  let changes ← Change.between tolerance before.sheet.cells after.sheet.cells
  pure
    { edits
      changes
      formulaCount := after.graph.formulas.size
      propagatedCount := (changes.filter (Change.isPropagated edits)).length
      chainDepth := after.graph.depth edits.keys
      circular := after.circular }

/-- Texts typed into cells, and what became of the values. Edits of what is no cell
    are refused before anything changes. The engine is given back in every case;
    if there is no report because values cannot be compared, the edits are done
    all the same. -/
def recalculate (engine : Engine) (edits : OrderedMap String String) (tolerance : Number) :
    Except EngineError Report × Engine :=
  match engine.loaded .recalculate with
  | .error e => (.error e, engine)
  | .ok book =>
    -- All names are checked first, so a refused edit leaves no trace.
    match edits.keys.find? fun id => (Address.ofId? id).isNone with
    | some id => (.error (.badCellId id), engine)
    | none =>
      let after := book.edited engine.functions edits
      (report edits tolerance book after, { engine with book := some after })

/-- The loaded sheet, with the values found so far. -/
def snapshot (engine : Engine) : Except EngineError Sheet :=
  (engine.loaded .snapshot).map Workbook.sheet

/-- The value of a text, given the current values of the cells. -/
def evaluate (engine : Engine) (text : String) : Value :=
  Scope.evaluate ⟨((engine.book.map Workbook.sheet).getD .empty).cells, engine.functions⟩ text

end Engine

end Spreadsheet
