import Stencil.Node.Source

/-!
# Trees without locations

Where a node stands matters to errors alone. `relocate` moves the nodes of a tree and leaves all
else as it is; two ways of moving them serve to compare trees: to `unlocated` trees, which forget
their locations, and to `unlined` ones, which forget their lines. Whatever does not look at
locations is the same before and after, the source form of a tree for one (`source_relocate`).
-/

namespace Stencil.Node

variable (move : Location → Location)

mutual

/-- **The tree with its nodes moved.** Nothing else of it changes, and in particular no node can
tell that another one was moved. -/
def relocate : Node → Node
  | .text loc content => .text (move loc) content
  | .interpolation loc expr => .interpolation (move loc) expr.relocate
  | .reference loc path => .reference (move loc) path
  | .call loc name args => .call (move loc) name (relocateList args)
  | .literal loc value => .literal (move loc) value
  | .inclusion loc name data => .inclusion (move loc) name.relocate (relocateOption data)
  | .block loc kind expr body orElse =>
    .block (move loc) kind expr.relocate body.relocate (relocateOption orElse)
  | .list loc items => .list (move loc) (relocateList items)

/-- A row of trees with their nodes moved. -/
def relocateList : List Node → List Node
  | [] => []
  | node :: nodes => node.relocate :: relocateList nodes

/-- A tree that may be missing, with its nodes moved. -/
def relocateOption : Option Node → Option Node
  | none => none
  | some node => some node.relocate

end

/-- **The tree without its locations**: every node is moved to one and the same place, so that two
trees are equal then if they differ in nothing else. -/
def unlocated (node : Node) : Node :=
  node.relocate fun _ => default

/-- **The tree without its lines**: every node stays in its source. Texts that differ in spacing
alone are read as trees that agree so. -/
def unlined (node : Node) : Node :=
  node.relocate fun loc => ⟨loc.src, 0⟩

@[simp] theorem relocateList_eq_map (nodes : List Node) :
    relocateList move nodes = nodes.map (relocate move) := by
  induction nodes with
  | nil => rfl
  | cons node nodes ih => rw [relocateList, ih, List.map_cons]

@[simp] theorem relocateOption_eq_map (node? : Option Node) :
    relocateOption move node? = node?.map (relocate move) := by
  cases node? <;> rfl

mutual

/-- Moved twice is moved once. -/
theorem relocate_relocate (next : Location → Location) : ∀ node : Node,
    (node.relocate move).relocate next = node.relocate (next ∘ move)
  | .text .. | .reference .. | .literal .. => rfl
  | .interpolation _ expr => by
    simp only [relocate, relocate_relocate next expr, Function.comp_apply]
  | .call _ name args => by
    simp only [relocate, relocateList_relocateList next args, Function.comp_apply]
  | .inclusion _ name none => by
    simp only [relocate, relocateOption, relocate_relocate next name, Function.comp_apply]
  | .inclusion _ name (some data) => by
    simp only [relocate, relocateOption, relocate_relocate next name,
      relocate_relocate next data, Function.comp_apply]
  | .block _ kind expr body none => by
    simp only [relocate, relocateOption, relocate_relocate next expr,
      relocate_relocate next body, Function.comp_apply]
  | .block _ kind expr body (some orElse) => by
    simp only [relocate, relocateOption, relocate_relocate next expr,
      relocate_relocate next body, relocate_relocate next orElse, Function.comp_apply]
  | .list _ items => by
    simp only [relocate, relocateList_relocateList next items, Function.comp_apply]

theorem relocateList_relocateList (next : Location → Location) : ∀ nodes : List Node,
    relocateList next (relocateList move nodes) = relocateList (next ∘ move) nodes
  | [] => rfl
  | node :: nodes => by
    simp only [relocateList, relocate_relocate next node, relocateList_relocateList next nodes]

end

/-- Trees that agree without their lines agree without their locations. -/
@[simp] theorem unlocated_unlined (node : Node) : node.unlined.unlocated = node.unlocated :=
  relocate_relocate _ _ node

/-- A call stays a call. -/
@[simp] theorem unlined_call (loc : Location) (name : String) (args : List Node) :
    (call loc name args).unlined = call ⟨loc.src, 0⟩ name (args.map unlined) := by
  rw [unlined, relocate, relocateList_eq_map]
  rfl

theorem unlocated_call (loc : Location) (name : String) (args : List Node) :
    (call loc name args).unlocated = call default name (args.map unlocated) := by
  rw [unlocated, relocate, relocateList_eq_map]
  rfl

theorem unlocated_interpolation (loc : Location) (expr : Node) :
    (interpolation loc expr).unlocated = interpolation default expr.unlocated := rfl

theorem unlocated_inclusion (loc : Location) (name : Node) (data : Option Node) :
    (inclusion loc name data).unlocated
      = inclusion default name.unlocated (data.map unlocated) := by
  rw [unlocated, relocate, relocateOption_eq_map]
  rfl

theorem unlocated_block (loc : Location) (kind : BlockKind) (expr body : Node)
    (orElse : Option Node) :
    (block loc kind expr body orElse).unlocated
      = block default kind expr.unlocated body.unlocated (orElse.map unlocated) := by
  rw [unlocated, relocate, relocateOption_eq_map]
  rfl

theorem unlocated_list (loc : Location) (items : List Node) :
    (list loc items).unlocated = list default (items.map unlocated) := by
  rw [unlocated, relocate, relocateList_eq_map]
  rfl

/-! ### Source forms

What is written for a tree does not mention locations. The one case that needs care is a call, which
is written as a pipeline if it has a single argument: moving keeps the number of arguments, so it
keeps the spelling. -/

/-- A row of trees is written tree by tree. -/
theorem sources_eq_map (nodes : List Node) : sources nodes = nodes.map source := by
  induction nodes with
  | nil => rfl
  | cons node nodes ih => rw [sources, ih, List.map_cons]

/-- A call of any number of arguments but one is written with parentheses. -/
theorem source_call {loc : Location} {name : String} {args : List Node} (h : args.length ≠ 1) :
    source (.call loc name args)
      = name.toList ++ '(' :: ((List.intersperse [',', ' '] (sources args)).flatten ++ [')']) := by
  rw [source]
  rintro arg rfl
  exact h rfl

mutual

/-- **Locations are not written**, so a tree and the tree moved elsewhere have one source form. -/
theorem source_relocate : ∀ node : Node, (node.relocate move).source = node.source
  | .text .. | .reference .. | .literal .. => rfl
  | .interpolation _ expr => by rw [relocate, source, source, source_relocate expr]
  | .call _ name [] => rfl
  | .call _ name [arg] => by
    rw [relocate, relocateList, relocateList, source, source, source_relocate arg]
  | .call _ name (arg :: other :: args) => by
    rw [relocate, source_call (by simp), source_call (by simp), sources_relocateList]
  | .inclusion _ name none => by rw [relocate, relocateOption, source, source, source_relocate name]
  | .inclusion _ name (some data) => by
    rw [relocate, relocateOption, source, source, source_relocate name, source_relocate data]
  | .block _ kind expr body none => by
    rw [relocate, relocateOption, source, source, source_relocate expr, source_relocate body]
  | .block _ kind expr body (some orElse) => by
    rw [relocate, relocateOption, source, source, source_relocate expr, source_relocate body,
      source_relocate orElse]
  | .list _ items => by rw [relocate, source, source, sources_relocateList items]

theorem sources_relocateList : ∀ nodes : List Node,
    sources (relocateList move nodes) = sources nodes
  | [] => rfl
  | node :: nodes => by
    rw [relocateList, sources, sources, source_relocate node, sources_relocateList nodes]

end

end Stencil.Node
