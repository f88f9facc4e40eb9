import Spreadsheet.Json.Reader
import Spreadsheet.Json.Writer
import Spreadsheet.Recompute

/-!
# Documents

Sheets as JSON documents.

A document is an object with the list `rows` and the object `metadata`. Row by
row, each an object, it lists the cells under the labels of their columns: the
literal text, the formula if there is one, and the attributes that are set. Rows
without cells are empty objects, so that the place of a row in the list is its
number. The metadata hold the size of the grid and the time of writing.

Writing lists the rows up to the last one that has a cell with a text or a
formula. Reading is strict about the shape of a document and about the labels,
and lenient about values: a literal may be any JSON value, of which the text is
taken, a size that is not a positive whole number is replaced by the default,
and keys that mean nothing are passed over. The values of the cells are found
anew; none are kept in a document.

## Main definitions

* `DocumentError`: Why a document was refused.
* `Sheet.toDocument`: The document of a sheet.
* `Sheet.ofDocument`: The sheet of a document.
* `Sheet.write`, `Sheet.read`: The same, for the text of a document.
-/

namespace Spreadsheet

/-- Why a document was refused. -/
inductive DocumentError where
  | notJson
  | notAnObject
  | noRows
  /-- The metadata are not an object. -/
  | badMetadata
  /-- A row, counted from zero, is not an object. -/
  | badRow (index : Nat)
  /-- A key in a row is not the label of a column. -/
  | badLabel (label : String) (index : Nat)
  /-- A cell is not an object. -/
  | badCell (id : String)
  /-- A formula is not a text. -/
  | badFormula (id : String)
  /-- A style is not an object. -/
  | badStyle (id : String)
deriving DecidableEq, Repr

namespace DocumentError

/-- The text shown for an error. -/
def message : DocumentError → String
  | notJson => "Invalid JSON"
  | notAnObject => "Document must be an object"
  | noRows => "Document has no 'rows' list"
  | badMetadata => "'metadata' must be an object"
  | badRow index => "rows[" ++ toString index ++ "] must be an object"
  | badLabel label index =>
    "Invalid column label " ++ Text.quote label ++ " in row " ++ toString (index + 1)
  | badCell id => id ++ ": cell must be an object"
  | badFormula id => id ++ ": formula must be a string"
  | badStyle id => id ++ ": style must be an object"

end DocumentError

namespace Cell

/-- The entry of a cell in a document. -/
def toEntry (c : Cell) : Json :=
  .object <|
    ("value", .text c.value)
      :: (c.formula?.toList.map fun formula => ("formula", .text formula))
      ++ (if c.hasStyle then
            c.style.toList.map fun style => ("style", .object style.toFields)
          else [])

/-- The formula of an entry: none if it counts as not given. -/
def formulaOfEntry (id : String) (entry : Option Json) : Except DocumentError (Option String) :=
  match entry with
  | none => .ok none
  | some value =>
    if value.isVoid then .ok none
    else
      match value with
      | .text formula => .ok (some formula)
      | _ => .error (.badFormula id)

/-- The style of an entry: none if it is null or sets nothing. -/
def styleOfEntry (id : String) (entry : Option Json) : Except DocumentError (Option Style) :=
  match entry with
  | none => .ok none
  | some .null => .ok none
  | some (.object fields) =>
    let style := Style.ofFields fields
    .ok (if style.isEmpty then none else some style)
  | some _ => .error (.badStyle id)

/-- The cell of an entry. -/
def ofEntry (id : String) (entry : Json) : Except DocumentError Cell :=
  match entry with
  | .object fields => do
    let formula ← formulaOfEntry id (Json.field? fields "formula")
    let style ← styleOfEntry id (Json.field? fields "style")
    pure { value := ((Json.field? fields "value").getD .null).display, formula, style }
  | _ => .error (.badCell id)

end Cell

namespace Cells

/-- The cells that a document lists, with their addresses, row by row. -/
def listed (cells : Cells) : List (Address × Cell) :=
  let located := cells.entries.filterMap fun (id, c) =>
    (Address.ofId? id).map fun a => (a, c)
  (located.mergeSort fun p q => rowMajor p.1 q.1).filter fun (_, c) =>
    !c.value.isEmpty || c.isFormula

/-- The fields of the cells of one row, under the labels of their columns. -/
def rowFields (cells : List (Address × Cell)) : List (String × Json) :=
  (OrderedMap.ofList (cells.map fun (a, c) =>
    (String.ofList (Column.letters a.col.toNat), c.toEntry))).entries

/-- The rows of a document, up to the last one that has a cell. -/
def toRows (cells : Cells) : List Json :=
  let listed := cells.listed
  let count := listed.foldl (fun n (a, _) => max n (a.row.toNat + 1)) 0
  (List.range count).map fun (row : Nat) =>
    .object (rowFields (listed.filter fun (a, _) => a.row = (row : Int)))

/-- The cells together with those of one field of a row. -/
def addField (index : Nat) (cells : Cells) (field : String × Json) : Except DocumentError Cells :=
  let (label, entry) := field
  let id := label ++ toString (index + 1)
  if (Column.index? label).isNone then .error (.badLabel label index)
  else do
    let cell ← Cell.ofEntry id entry
    pure (if cell.isEmpty then cells else cells.insert id cell)

/-- The cells together with those of one row. -/
def addRow (cells : Cells) (row : Json × Nat) : Except DocumentError Cells :=
  match row with
  | (.object fields, index) => fields.foldlM (addField index) cells
  | (_, index) => .error (.badRow index)

/-- The cells of the rows of a document. -/
def ofRows (rows : List Json) : Except DocumentError Cells := rows.zipIdx.foldlM addRow ∅

end Cells

namespace Sheet

/-- The document of a sheet, with a text for the time of writing. -/
def toDocument (sheet : Sheet) (time : String) : Json :=
  .object
    [("rows", .array sheet.cells.toRows),
     ("metadata", .object
       [("rowCount", .number (.whole sheet.rowCount)),
        ("columnCount", .number (.whole sheet.columnCount)),
        ("exportedAt", .text time)])]

/-- A size of the grid: a positive whole number, or the default. -/
def sizeOf (entry : Option Json) (default : Int) : Int :=
  match entry with
  | some (.number (.whole n)) => if 0 < n then n else default
  | _ => default

/-- The metadata of a document. What counts as not given is empty. -/
def metadataOf (entry : Option Json) : Except DocumentError (List (String × Json)) :=
  match entry with
  | none => .ok []
  | some value =>
    if value.isVoid then .ok []
    else
      match value with
      | .object fields => .ok fields
      | _ => .error .badMetadata

/-- The sheet of a document, with the values of its cells. -/
def ofDocument (document : Json) : Except DocumentError Sheet :=
  match document with
  | .object fields =>
    match Json.field? fields "rows" with
    | some (.array rows) => do
      -- The metadata are looked at before the rows, so their fault is reported first.
      let metadata ← metadataOf (Json.field? fields "metadata")
      let cells ← Cells.ofRows rows
      let sheet : Sheet :=
        { cells
          rowCount := sizeOf (Json.field? metadata "rowCount") empty.rowCount
          columnCount := sizeOf (Json.field? metadata "columnCount") empty.columnCount }
      pure (sheet.recompute .builtins)
    | _ => .error .noRows
  | _ => .error .notAnObject

/-- The text of the document of a sheet: on one line, or indented. -/
def write (sheet : Sheet) (indent : Option Nat) (time : String) : String :=
  (sheet.toDocument time).write indent

/-- The sheet of the text of a document. -/
def read (text : String) : Except DocumentError Sheet :=
  match Json.parse? text with
  | some document => ofDocument document
  | none => .error .notJson

end Sheet

end Spreadsheet
