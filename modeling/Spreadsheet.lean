import Spreadsheet.Dependency.Order
import Spreadsheet.Document
import Spreadsheet.Edit
import Spreadsheet.Engine
import Spreadsheet.Timestamp
import Spreadsheet.Proofs.Formula.Mention
import Spreadsheet.Proofs.Formula.Literal
import Spreadsheet.Proofs.Formula.Regular
import Spreadsheet.Proofs.Formula.Nesting
import Spreadsheet.Proofs.Formula.Piece
import Spreadsheet.Proofs.Formula.Pass
import Spreadsheet.Proofs.Address.Codec
import Spreadsheet.Proofs.Address.Column
import Spreadsheet.Proofs.Address.Name
import Spreadsheet.Proofs.Block.Listing
import Spreadsheet.Proofs.Block.Corners
import Spreadsheet.Proofs.Formula.Form
import Spreadsheet.Proofs.Traversal
import Spreadsheet.Proofs.Evaluate.Level
import Spreadsheet.Proofs.Evaluate.Consults
import Spreadsheet.Proofs.Evaluate.Coverage
import Spreadsheet.Proofs.Dependency.Edges
import Spreadsheet.Proofs.Dependency.Order
import Spreadsheet.Proofs.Dependency.Sheet
import Spreadsheet.Proofs.Dependency.Expanded
import Spreadsheet.Proofs.Dependency.Replaced
import Spreadsheet.Proofs.Recompute.Pass
import Spreadsheet.Proofs.Evaluate.Errors
import Spreadsheet.Proofs.Recompute.Fixpoint
import Spreadsheet.Proofs.Recompute.Input
import Spreadsheet.Proofs.Evaluate.Depth
import Spreadsheet.Proofs.Evaluate.Probe
import Spreadsheet.Proofs.Recompute.MappingOrder
import Spreadsheet.Proofs.Arithmetic.Grammar
import Spreadsheet.Proofs.Number.Double
import Spreadsheet.Proofs.Number.Shortest
import Spreadsheet.Proofs.Number.Numeral
import Spreadsheet.Proofs.Number.Display
import Spreadsheet.Proofs.Arithmetic.Tokens
import Spreadsheet.Proofs.Arithmetic.Operand
import Spreadsheet.Proofs.Arithmetic.Spelling
import Spreadsheet.Proofs.Arithmetic.Splicing
import Spreadsheet.Proofs.Evaluate.Substitution
import Spreadsheet.Proofs.Number.Distance
import Spreadsheet.Proofs.Recompute.Entries
import Spreadsheet.Proofs.Number.Range
import Spreadsheet.Proofs.Formula.Length
import Spreadsheet.Proofs.Evaluate.Termination
import Spreadsheet.Proofs.Recompute.Comparable
import Spreadsheet.Proofs.Engine.Change
import Spreadsheet.Proofs.Engine.Run
import Spreadsheet.Proofs.Engine.Frame
import Spreadsheet.Proofs.Engine.Names
import Spreadsheet.Proofs.Engine.Failure
import Spreadsheet.Proofs.Engine.Edits
import Spreadsheet.Proofs.Engine.OwnText
import Spreadsheet.Proofs.Document.Entry
import Spreadsheet.Proofs.Document.RoundTrip
import Spreadsheet.Proofs.Document.Place
import Spreadsheet.Proofs.Recompute.Stale
import Spreadsheet.Proofs.Evaluate.Normal
import Spreadsheet.Proofs.Recompute.Values
import Spreadsheet.Proofs.Evaluate.Overflow
import Spreadsheet.Proofs.Recompute.Overflow
import Spreadsheet.Proofs.Edit.Cell
import Spreadsheet.Proofs.Edit.Reachable
import Spreadsheet.Proofs.Edit.Commute
import Spreadsheet.Proofs.Number.Zero
import Spreadsheet.Proofs.Edit.Style
import Spreadsheet.Proofs.Evaluate.Blank
import Spreadsheet.Proofs.Arithmetic.Lexing
import Spreadsheet.Proofs.Arithmetic.Levels
import Spreadsheet.Proofs.Arithmetic.Outcome
import Spreadsheet.Proofs.Formula.Joined
import Spreadsheet.Proofs.Formula.Escape
import Spreadsheet.Proofs.Evaluate.Call
import Spreadsheet.Proofs.Evaluate.Literals
import Spreadsheet.Proofs.Engine.Index
import Spreadsheet.Proofs.Number.Rounding
import Spreadsheet.Proofs.Number.Canonical
import Spreadsheet.Proofs.Number.Nearest
import Spreadsheet.Proofs.Number.ReadBack
import Spreadsheet.Proofs.Number.Retyped
import Spreadsheet.Proofs.Number.Whole
import Spreadsheet.Proofs.Number.Closest
import Spreadsheet.Proofs.Number.Places
import Spreadsheet.Proofs.Function.Round
import Spreadsheet.Proofs.Dependency.Depth
import Spreadsheet.Proofs.Evaluate.Listed
import Spreadsheet.Proofs.Evaluate.Inert
import Spreadsheet.Proofs.Evaluate.Quoted
import Spreadsheet.Proofs.Evaluate.Numeric
