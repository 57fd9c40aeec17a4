import Stencil.FunctionRegistry
import Stencil.Node.Source

/-!
# Template sets

A set holds named templates and the functions they may call. All templates of a set see one another.
Its source form defines each of them, in the order of their names.
-/

namespace Stencil

/-- **Named templates and their functions.** Neither refers to the other: a tree may call functions
and include templates that the set does not have, and only running it will show. -/
structure TemplateSet where
  /-- the functions that the templates may call -/
  functions : FunctionRegistry
  /-- the trees of the templates, by name -/
  templates : NameMap Node

namespace TemplateSet

/-- The set without templates and functions. -/
def empty : TemplateSet := ⟨.empty, .empty⟩

instance : EmptyCollection TemplateSet := ⟨empty⟩
instance : Inhabited TemplateSet := ⟨empty⟩

/-- The tree of a template. -/
def template? (set : TemplateSet) (name : String) : Option Node :=
  set.templates.find? name

/-- The names of all templates, in ascending order. -/
def names (set : TemplateSet) : List String :=
  set.templates.names

/-- The same templates with other functions. -/
def withFunctions (set : TemplateSet) (functions : FunctionRegistry) : TemplateSet :=
  { set with functions }

/-- Registers a function, in place of the one of that name. -/
def register (set : TemplateSet) (name : String) (function : HostFunction) : TemplateSet :=
  { set with functions := set.functions.register name function }

/-- Puts a tree under a name, in place of the one that is there. -/
def setTemplate (set : TemplateSet) (name : String) (root : Node) : TemplateSet :=
  { set with templates := set.templates.insert name root }

theorem template?_setTemplate (set : TemplateSet) (name other : String) (root : Node) :
    (set.setTemplate name root).template? other
      = if other = name then some root else set.template? other :=
  NameMap.find?_insert ..

theorem mem_entries_iff {set : TemplateSet} {name : String} {root : Node} :
    (name, root) ∈ set.templates.entries ↔ set.template? name = some root :=
  (Entries.lookup_eq_some_iff set.templates.ascending).symm

theorem template?_eq_none_iff {set : TemplateSet} {name : String} :
    set.template? name = none ↔ name ∉ set.names :=
  NameMap.find?_eq_none_iff

theorem mem_names_iff {set : TemplateSet} {name : String} :
    name ∈ set.names ↔ ∃ root, set.template? name = some root := by
  rw [← Option.ne_none_iff_exists', ne_eq, template?_eq_none_iff, Decidable.not_not]

/-- Sets with the same trees and functions under all names are equal, since maps of names have one
representation. -/
theorem ext_find? {set other : TemplateSet}
    (htrees : ∀ name, set.template? name = other.template? name)
    (hfunctions : ∀ name, set.functions.find? name = other.functions.find? name) :
    set = other := by
  obtain ⟨⟨functions⟩, templates⟩ := set
  obtain ⟨⟨functions'⟩, templates'⟩ := other
  obtain rfl : functions = functions' := NameMap.ext_find? hfunctions
  obtain rfl : templates = templates' := NameMap.ext_find? htrees
  rfl

/-- The source form of the definition of a template. The name is written as a literal, so it may be
any text. -/
def definitionSource (name : String) (root : Node) : List Char :=
  Node.directive ("define ".toList ++ Text.Literal.write name.toList) ++ root.source
    ++ Node.directive "end".toList

/-- **The source form of a set**: its definitions by ascending name, with an empty line between.
Functions are not written. -/
def source (set : TemplateSet) : List Char :=
  (List.intersperse ['\n', '\n']
    (set.templates.entries.map fun (name, root) => definitionSource name root)).flatten

/-- The source form of a set, as a string. -/
def sourceText (set : TemplateSet) : String :=
  String.ofList set.source

instance : ToString TemplateSet := ⟨sourceText⟩

end TemplateSet

end Stencil
