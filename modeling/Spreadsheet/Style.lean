import Spreadsheet.Json

/-!
# Styles

How a cell is to be presented.

A style gives values to some of seven attributes and leaves the others unset.
Nothing is known here about the values, except that none is null, since null
unsets an attribute: they are carried along from a document or an edit and handed
back. An attribute has two names, one for edits and one for documents.

## Main definitions

* `Attribute`: The seven attributes.
* `Attribute.name`, `Attribute.key`: Their names in edits and in documents.
* `Style`: Values for some of the attributes.
* `Style.merge`: A style with some attributes changed.
* `Style.ofFields`, `Style.toFields`: Styles in documents.

## Theorems

* `value?_set_self`, `value?_set_of_ne`: Setting changes one attribute.
-/

namespace Spreadsheet

/-- What a style can determine. -/
inductive Attribute where
  | bold
  | italic
  | underline
  | strikethrough
  | textAlign
  | backgroundColor
  | textColor
deriving DecidableEq, Repr

namespace Attribute

/-- All attributes, in the order in which they are written. -/
def all : List Attribute :=
  [bold, italic, underline, strikethrough, textAlign, backgroundColor, textColor]

/-- The name by which an edit sets the attribute. -/
def name : Attribute → String
  | bold => "bold"
  | italic => "italic"
  | underline => "underline"
  | strikethrough => "strikethrough"
  | textAlign => "text_align"
  | backgroundColor => "background_color"
  | textColor => "text_color"

/-- The key under which a document keeps the attribute. -/
def key : Attribute → String
  | textAlign => "textAlign"
  | backgroundColor => "backgroundColor"
  | textColor => "textColor"
  | a => a.name

/-- The attribute with a name. -/
def ofName? (s : String) : Option Attribute := all.find? fun a => a.name == s

/-- The attribute with a key. -/
def ofKey? (s : String) : Option Attribute := all.find? fun a => a.key == s

end Attribute

/-- Why a change of style was refused. -/
inductive StyleError where
  /-- Names that no attribute has, in alphabetical order. -/
  | unknownAttributes (names : List String)

namespace StyleError

/-- The text shown for an error. -/
def message : StyleError → String
  | unknownAttributes names =>
    "Unknown style attributes: [" ++ String.intercalate ", " (names.map Text.quote) ++ "]"

end StyleError

/-- Values for some of the attributes. -/
structure Style where
  value? : Attribute → Option Json
  /-- An attribute is never set to null, which means that it is not set. -/
  value?_ne_null : ∀ a, value? a ≠ some .null

namespace Style

/-- The style that sets nothing. -/
def empty : Style where
  value? _ := none
  value?_ne_null _ h := by cases h

/-- Whether nothing is set. -/
def isEmpty (s : Style) : Bool := Attribute.all.all fun a => (s.value? a).isNone

/-- What a value sets an attribute to. The value null unsets it. -/
def setting : Json → Option Json
  | .null => none
  | value => some value

theorem setting_eq_some {value : Json} (h : value ≠ .null) : setting value = some value := by
  cases value <;> first | exact absurd rfl h | rfl

theorem setting_ne_null (value : Json) : setting value ≠ some .null := by
  cases value <;> exact fun h => by cases h

/-- The style with one attribute changed. -/
def set (s : Style) (a : Attribute) (value : Json) : Style where
  value? b := if b = a then setting value else s.value? b
  value?_ne_null b := by
    split
    · exact setting_ne_null value
    · exact s.value?_ne_null b

/-- The style with the fields whose names `find?` knows, the others left out. -/
def setAll (find? : String → Option Attribute) (s : Style) (fields : List (String × Json)) :
    Style :=
  fields.foldl
    (fun s (name, value) => match find? name with | some a => s.set a value | none => s) s

/-- The style with attributes changed by name. If some name is unknown, nothing is
    changed. -/
def merge (s : Style) (changes : List (String × Json)) : Except StyleError Style :=
  let unknown := (changes.map Prod.fst).filter fun name => (Attribute.ofName? name).isNone
  if unknown.isEmpty then .ok (s.setAll Attribute.ofName? changes)
  else .error (.unknownAttributes (unknown.mergeSort fun a b => decide (a ≤ b)))

/-- The style of an object in a document. Keys that no attribute has are left
    out. -/
def ofFields (fields : List (String × Json)) : Style := empty.setAll Attribute.ofKey? fields

/-- The attributes that are set, with their keys. -/
def toFields (s : Style) : List (String × Json) :=
  Attribute.all.filterMap fun a => (s.value? a).map fun value => (a.key, value)

/-- Setting an attribute to a value other than null gives it that value. -/
theorem value?_set_self (s : Style) (a : Attribute) (value : Json) (h : value ≠ .null) :
    (s.set a value).value? a = some value :=
  (if_pos rfl).trans (setting_eq_some h)

/-- Setting an attribute leaves the others alone. -/
theorem value?_set_of_ne (s : Style) {a b : Attribute} (value : Json) (h : b ≠ a) :
    (s.set a value).value? b = s.value? b :=
  if_neg h

end Style

end Spreadsheet
