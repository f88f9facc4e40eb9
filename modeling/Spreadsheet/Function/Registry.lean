import Spreadsheet.Function.Builtin
import Spreadsheet.OrderedMap

/-!
# Registries

The functions that formulas can call, by name.

A registry starts with the builtin functions and can be given more, or others
under the same names. Names are kept in upper case, so a function is found under
any capitalisation of the name it was registered with.

## Main definitions

* `Registry`: Functions by name.
* `Registry.builtins`: The builtin functions.
* `Registry.register`: A registry with one more function.
* `Registry.get?`: The function with a name.
-/

namespace Spreadsheet

/-- Functions by name. -/
structure Registry where
  /-- The functions, under their names in upper case. -/
  functions : OrderedMap String Function

namespace Registry

/-- The builtin functions. -/
def builtins : Registry where
  functions := .ofList (Builtin.all.map fun f => (f.name, f.apply))

/-- The registry with a function under a name, which may replace another. -/
def register (registry : Registry) (name : String) (f : Function) : Registry where
  functions := registry.functions.insert (Text.upper name) f

/-- The function with a name, however it is capitalised. -/
def get? (registry : Registry) (name : String) : Option Function :=
  registry.functions.get? (Text.upper name)

/-- Whether there is a function with a name. -/
def has (registry : Registry) (name : String) : Bool := (registry.get? name).isSome

/-- The names of all functions. -/
def names (registry : Registry) : List String := registry.functions.keys

end Registry

end Spreadsheet
