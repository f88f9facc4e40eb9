import Spreadsheet.Formula.Mention
import Spreadsheet.Sheet

/-!
# Dependency Graphs

Which formula reads which cell.

A formula reads the single cells that it mentions and the cells of the blocks
that it names. For single cells the graph keeps the readers of each; blocks are
kept as they are, so that a large range over an almost empty sheet costs no more
than a small one, and whether a cell lies in one is found by its address. A cell
that is read need not exist.

Formulas are added one after the other. Adding a second formula for a cell
replaces its text and keeps its place, but the reader entries of the first stay,
and so do its blocks unless the second has some. A graph that is built from a
sheet has one formula for each cell, and then the entries are exact.

## Main definitions

* `DependencyGraph`: Formulas, with what they read.
* `DependencyGraph.addFormula`: The graph with one more formula.
* `DependencyGraph.ofCells`: The graph of the formulas among some cells.
* `DependencyGraph.isReader`: Whether a formula cell reads a cell.
* `DependencyGraph.readersOf`: The formula cells that read a cell.
-/

namespace Spreadsheet

/-- Formulas by cell, with what they read. -/
structure DependencyGraph where
  /-- The formulas, in the order in which their cells were added. -/
  formulas : OrderedMap String String := ∅
  /-- The single cells that each formula mentions. -/
  dependencies : OrderedMap String (List String) := ∅
  /-- The formula cells that mention each single cell. -/
  dependents : OrderedMap String (List String) := ∅
  /-- The blocks of the formulas that name some. -/
  blocks : OrderedMap String (List Block) := ∅

namespace DependencyGraph

instance : Inhabited DependencyGraph := ⟨{}⟩

/-- The dependents with one more reader of a cell. -/
def addReader (reader : String) (dependents : OrderedMap String (List String)) (id : String) :
    OrderedMap String (List String) :=
  let known := (dependents.get? id).getD []
  dependents.insert id (if known.contains reader then known else known ++ [reader])

/-- The graph with one more formula, or with another formula for a cell that has
    one. -/
def addFormula (graph : DependencyGraph) (id formula : String) : DependencyGraph :=
  let references := Formula.references formula
  let blocks := Formula.ranges formula
  { formulas := graph.formulas.insert id formula
    dependencies := graph.dependencies.insert id references
    -- Entries of an earlier formula of the cell stay.
    dependents := references.foldl (addReader id) graph.dependents
    blocks := if blocks.isEmpty then graph.blocks else graph.blocks.insert id blocks }

/-- The graph of a list of formulas, added one after the other. -/
def ofFormulas (formulas : List (String × String)) (graph : DependencyGraph) : DependencyGraph :=
  formulas.foldl (fun graph (id, formula) => graph.addFormula id formula) graph

/-- The formulas among some cells, with the names of their cells. -/
def formulasOf (cells : Cells) : List (String × String) :=
  cells.entries.filterMap fun (id, cell) => cell.formula?.map fun formula => (id, formula)

/-- The graph of the formulas among some cells. -/
def ofCells (cells : Cells) : DependencyGraph := ofFormulas (formulasOf cells) {}

/-- Whether a formula names a block that holds a cell. A name that denotes no
    address lies in no block. -/
def readsInBlock (graph : DependencyGraph) (reader id : String) : Bool :=
  match Address.ofId? id with
  | some a => ((graph.blocks.get? reader).getD []).any fun block => a ∈ block
  | none => false

/-- Whether the formula of one cell reads another cell, singly or in a block. -/
def isReader (graph : DependencyGraph) (reader id : String) : Bool :=
  ((graph.dependents.get? id).getD []).contains reader || graph.readsInBlock reader id

/-- The formula cells that read a cell, in the order of the formulas. -/
def readersOf (graph : DependencyGraph) (id : String) : List String :=
  graph.formulas.keys.filter fun reader => graph.isReader reader id

end DependencyGraph

end Spreadsheet
