import Spreadsheet.Dependency.Graph

/-!
# Evaluation Order

In which order formulas are evaluated, and how far a change reaches.

Every formula waits for the formula cells that it reads. Those that wait for
none are ready, in the order of the graph; each one that is done makes its
readers wait for one cell less, and readers that wait for nothing more join the
end of the queue. What is never ready is blocked: it lies on a cycle, or reads a
cell that is blocked.

Each formula is ready at most once, so the walk takes no more steps than there
are formulas. The same number bounds the length of a chain of readers: a longer
one has to repeat a cell.

## Main definitions

* `DependencyGraph.waitingFor`: How many formula cells a formula reads.
* `DependencyGraph.order`, `DependencyGraph.blocked`: The formulas in the order
  of evaluation, and those that have no place in it.
* `DependencyGraph.depth`: The length of the longest chain of readers.
-/

namespace Spreadsheet

namespace DependencyGraph

/-- The number of formula cells that a formula reads. -/
def waitingFor (graph : DependencyGraph) (reader : String) : Nat :=
  (graph.formulas.keys.filter fun id => graph.isReader reader id).length

/-- What the formulas wait for once a cell is done. -/
def release (graph : DependencyGraph) (id : String) (waiting : List (String × Nat)) :
    List (String × Nat) :=
  waiting.map fun (reader, n) => (reader, if graph.isReader reader id then n - 1 else n)

/-- The formulas that wait for a cell and for nothing else. -/
def freed (graph : DependencyGraph) (id : String) (waiting : List (String × Nat)) : List String :=
  (waiting.filter fun (reader, n) => graph.isReader reader id && n == 1).map Prod.fst

/-- The formulas that become ready, in at most `steps` steps, given how many cells
    each formula waits for and the queue of those that are ready. -/
def settle (graph : DependencyGraph) : Nat → List (String × Nat) → List String → List String
  | 0, _, _ => []
  | _ + 1, _, [] => []
  | steps + 1, waiting, id :: queue =>
    id :: settle graph steps (graph.release id waiting) (queue ++ graph.freed id waiting)

/-- The formula cells in the order in which they are evaluated. -/
def order (graph : DependencyGraph) : List String :=
  let waiting := graph.formulas.keys.map fun reader => (reader, graph.waitingFor reader)
  graph.settle graph.formulas.size waiting
    ((waiting.filter fun (_, n) => n == 0).map Prod.fst)

/-- The formula cells that are not evaluated: those on a cycle, and those that read
    a blocked cell. -/
def blocked (graph : DependencyGraph) : List String :=
  let order := graph.order
  graph.formulas.keys.filter fun id => !order.contains id

/-- The formula cells that read one of several cells. -/
def readersOfAny (graph : DependencyGraph) (ids : List String) : List String :=
  graph.formulas.keys.filter fun reader => ids.any fun id => graph.isReader reader id

/-- How many times one can go from cells to their readers before none are left, at
    most `limit` times. -/
def depthWithin (graph : DependencyGraph) : Nat → List String → Nat
  | 0, _ => 0
  | limit + 1, ids =>
    let readers := graph.readersOfAny ids
    if readers.isEmpty then 0 else 1 + depthWithin graph limit readers

/-- The length of the longest chain of formula cells that starts by reading one of
    the roots: the number of formulas, if the chain never ends. -/
def depth (graph : DependencyGraph) (roots : List String) : Nat :=
  graph.depthWithin graph.formulas.size roots

end DependencyGraph

end Spreadsheet
