import Spreadsheet.Number
import Spreadsheet.Text.Quote

/-!
# JSON Trees

The values of a JSON text.

Sheets are kept in JSON documents, and the attributes of a style may be any JSON
value at all: nothing looks inside them. The fields of an object keep the order
in which they were written. Numbers are whole or floating by the way they are
spelled, so `1` and `1.0` are different trees.

## Main definitions

* `Json`: A JSON tree.
* `Json.field?`: A field of an object.
* `Json.isVoid`: The values that count as not given.
* `Json.display`: The text that a cell shows for a value.
-/

namespace Spreadsheet

/-- A JSON tree. -/
inductive Json where
  | null
  | bool (b : Bool)
  | number (n : Number)
  | text (s : String)
  | array (items : List Json)
  /-- An object, with its fields in the order in which they were written. -/
  | object (fields : List (String × Json))

namespace Json

instance : Inhabited Json := ⟨null⟩

/-- A field of an object. -/
def field? (fields : List (String × Json)) (key : String) : Option Json := fields.lookup key

/-- Whether a value counts as not given: null, false, a zero, and whatever is
    empty. -/
def isVoid : Json → Bool
  | null => true
  | bool b => !b
  | number (.whole n) => n == 0
  | number (.float x) => x == 0
  | text s => s.isEmpty
  | array items => items.isEmpty
  | object fields => fields.isEmpty

mutual

/-- A value inside a list or an object, as a cell shows it: texts in quotes, and
    numbers by kind. -/
def listing : Json → String
  | null => "None"
  | bool b => if b then "True" else "False"
  | number (.whole n) => toString n
  | number (.float x) => Layout.compact.text x
  | text s => Text.quote s
  | array items => "[" ++ String.intercalate ", " (listings items) ++ "]"
  | object fields => "\x7b" ++ String.intercalate ", " (fieldListings fields) ++ "\x7d"

/-- The items of a list, as a cell shows them. -/
def listings : List Json → List String
  | [] => []
  | item :: rest => listing item :: listings rest

/-- The fields of an object, as a cell shows them. -/
def fieldListings : List (String × Json) → List String
  | [] => []
  | (key, value) :: rest => (Text.quote key ++ ": " ++ listing value) :: fieldListings rest

end

/-- The text that a cell shows for a value: a text as it is, a number as cells
    show it, nothing for null, and a listing of a list or an object. -/
def display : Json → String
  | null => ""
  | number n => n.display
  | text s => s
  | value => listing value

end Json

end Spreadsheet
