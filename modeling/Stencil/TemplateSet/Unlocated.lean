import Stencil.Node.Unlocated
import Stencil.TemplateSet.Basic

/-!
# Sets without locations

Two sets have the same trees if they are the same without their locations. Then they have the same
names and are written alike.
-/

namespace Stencil

/-- **Templates without their locations**, under the names they have and in the same order. -/
def unlocatedTrees (trees : List (String × Node)) : List (String × Node) :=
  trees.map fun tree => (tree.1, tree.2.unlocated)

/-- The names of templates have no locations. -/
theorem map_fst_unlocatedTrees (trees : List (String × Node)) :
    (unlocatedTrees trees).map Prod.fst = trees.map Prod.fst := by
  rw [unlocatedTrees, List.map_map]
  rfl

theorem lookup_unlocatedTrees (trees : List (String × Node)) (name : String) :
    (unlocatedTrees trees).lookup name = (trees.lookup name).map Node.unlocated :=
  Entries.lookup_map Node.unlocated trees name

/-- The order of templates has nothing to do with locations. -/
theorem ascending_unlocatedTrees_iff {trees : List (String × Node)} :
    Entries.Ascending (unlocatedTrees trees) ↔ Entries.Ascending trees :=
  List.pairwise_map

namespace TemplateSet

/-- **The set without the locations** of its trees. The order of the entries is one of names only,
so it is still ascending. -/
def unlocated (set : TemplateSet) : TemplateSet where
  functions := set.functions
  templates :=
    ⟨unlocatedTrees set.templates.entries, ascending_unlocatedTrees_iff.2 set.templates.ascending⟩

theorem template?_unlocated (set : TemplateSet) (name : String) :
    set.unlocated.template? name = (set.template? name).map Node.unlocated :=
  lookup_unlocatedTrees set.templates.entries name

/-! ### Sets with the same trees

Reading a set that was written cannot give the locations back, as they are not written. `SameTrees`
is what can be asked for: under every name the same tree, locations aside. -/

/-- **Two sets have the same trees**, locations aside, under the same names. Nothing is said of
their functions. -/
def SameTrees (set other : TemplateSet) : Prop :=
  unlocatedTrees set.templates.entries = unlocatedTrees other.templates.entries

namespace SameTrees

variable {set other : TemplateSet}

theorem names_eq (h : SameTrees set other) : set.names = other.names := by
  have hnames := congrArg (List.map Prod.fst) h
  rwa [map_fst_unlocatedTrees, map_fst_unlocatedTrees] at hnames

/-- Sets with the same trees have the same tree under every name. -/
theorem template?_eq (h : SameTrees set other) (name : String) :
    (set.template? name).map Node.unlocated = (other.template? name).map Node.unlocated := by
  calc (set.template? name).map Node.unlocated
      = (unlocatedTrees set.templates.entries).lookup name := (lookup_unlocatedTrees ..).symm
    _ = (unlocatedTrees other.templates.entries).lookup name := by rw [h]
    _ = (other.template? name).map Node.unlocated := lookup_unlocatedTrees ..

/-- With the same functions they are the same, locations aside. -/
theorem unlocated_withFunctions_eq (h : SameTrees set other) (functions : FunctionRegistry) :
    (set.withFunctions functions).unlocated = (other.withFunctions functions).unlocated := by
  simp only [unlocated, withFunctions, show unlocatedTrees set.templates.entries = _ from h]

end SameTrees

theorem definitionSource_unlocated (name : String) (root : Node) :
    definitionSource name root.unlocated = definitionSource name root := by
  rw [definitionSource, definitionSource, Node.unlocated, Node.source_relocate]

theorem map_definitionSource_unlocatedTrees (trees : List (String × Node)) :
    (unlocatedTrees trees).map (fun tree => definitionSource tree.1 tree.2)
      = trees.map fun tree => definitionSource tree.1 tree.2 := by
  rw [unlocatedTrees, List.map_map]
  apply List.map_congr_left
  intro tree _
  exact definitionSource_unlocated tree.1 tree.2

/-- **Sets with the same trees are written alike**, as neither locations nor functions are
written. -/
theorem SameTrees.sourceText_eq {set other : TemplateSet} (h : SameTrees set other) :
    set.sourceText = other.sourceText := by
  rw [sourceText, sourceText, source, source, ← map_definitionSource_unlocatedTrees, h,
    map_definitionSource_unlocatedTrees]

end TemplateSet

end Stencil
