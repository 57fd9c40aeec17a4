import Stencil.NameMap
import Stencil.Text.Quoted
import Stencil.Value.Basic

/-!
# Functions

Templates call functions by name. A function takes the values of its arguments, however many there
are, and answers with a value or says why it cannot.
-/

namespace Stencil

/-- **A function for templates**: a value, or the text of a failure. It sees the values of its
arguments and nothing else, and answers the same whenever it is called. -/
abbrev HostFunction : Type :=
  List Value → Except String Value

/-- **The functions that templates may call**, by name. Names are any text, though only identifiers
can be called from a source. -/
structure FunctionRegistry where
  /-- the functions under their names -/
  functions : NameMap HostFunction

namespace FunctionRegistry

/-- The registry without functions. -/
def empty : FunctionRegistry := ⟨.empty⟩

instance : EmptyCollection FunctionRegistry := ⟨empty⟩
instance : Inhabited FunctionRegistry := ⟨empty⟩

/-- The function under a name. -/
def find? (registry : FunctionRegistry) (name : String) : Option HostFunction :=
  registry.functions.find? name

/-- Whether a function is registered under a name. -/
def contains (registry : FunctionRegistry) (name : String) : Bool :=
  registry.functions.contains name

/-- The names of all functions, in ascending order. -/
def names (registry : FunctionRegistry) : List String :=
  registry.functions.names

/-- Registers a function under a name, in place of the one that is there. -/
def register (registry : FunctionRegistry) (name : String) (function : HostFunction) :
    FunctionRegistry :=
  ⟨registry.functions.insert name function⟩

/-- The registry of a list of functions; of two with one name the later counts. -/
def ofList (functions : List (String × HostFunction)) : FunctionRegistry :=
  ⟨.ofList functions⟩

/-- What a registry holds, for diagnostics: the names, quoted. -/
def summary (registry : FunctionRegistry) : String :=
  "FunctionRegistry \x7b functions: ["
    ++ String.intercalate ", " (registry.names.map Text.quoted) ++ "] \x7d"

theorem find?_register (registry : FunctionRegistry) (name other : String)
    (function : HostFunction) :
    (registry.register name function).find? other
      = if other = name then some function else registry.find? other :=
  NameMap.find?_insert ..

end FunctionRegistry

end Stencil
