import Stencil.Node.Children

/-!
# Subtrees

All nodes of a tree with what stands under them. A property of every node of a tree, wherever it
stands, is one of its subtrees.
-/

namespace Stencil.Node

mutual

/-- **The subtrees of a tree**: the tree, then the subtrees of its children in their order. A tree
that stands in two places is there twice. -/
def subtrees : Node → List Node
  | .text loc content => [.text loc content]
  | .interpolation loc expr => .interpolation loc expr :: expr.subtrees
  | .reference loc path => [.reference loc path]
  | .call loc name args => .call loc name args :: subtreesOf args
  | .literal loc value => [.literal loc value]
  | .inclusion loc name none => .inclusion loc name none :: name.subtrees
  | .inclusion loc name (some data) =>
    .inclusion loc name (some data) :: (name.subtrees ++ data.subtrees)
  | .block loc kind expr body none =>
    .block loc kind expr body none :: (expr.subtrees ++ body.subtrees)
  | .block loc kind expr body (some orElse) =>
    .block loc kind expr body (some orElse) :: (expr.subtrees ++ (body.subtrees ++ orElse.subtrees))
  | .list loc items => .list loc items :: subtreesOf items

/-- The subtrees of trees in a row. -/
def subtreesOf : List Node → List Node
  | [] => []
  | node :: nodes => node.subtrees ++ subtreesOf nodes

end

theorem subtreesOf_eq_flatMap (nodes : List Node) : subtreesOf nodes = nodes.flatMap subtrees := by
  induction nodes with
  | nil => rfl
  | cons node nodes ih => rw [subtreesOf, ih, List.flatMap_cons]

/-- **Under a node are its children**, and what is under them. From here on proofs go by `children`,
and the cases of `subtrees` are not looked at again. -/
theorem subtrees_eq (node : Node) : node.subtrees = node :: node.children.flatMap subtrees := by
  cases node with
  | text | reference | literal => rfl
  | interpolation => simp [subtrees, children]
  | call | list => rw [subtrees, subtreesOf_eq_flatMap, children]
  | inclusion loc name data => cases data <;> simp [subtrees, children]
  | block loc kind expr body orElse => cases orElse <;> simp [subtrees, children]

/-- A node is a subtree of a tree if it is the tree, or a subtree of a child. -/
theorem mem_subtrees_iff {node tree : Node} :
    node ∈ tree.subtrees ↔ node = tree ∨ ∃ child ∈ tree.children, node ∈ child.subtrees := by
  rw [subtrees_eq tree, List.mem_cons, List.mem_flatMap]

theorem mem_subtrees_self (tree : Node) : tree ∈ tree.subtrees :=
  mem_subtrees_iff.2 (.inl rfl)

/-- What holds of the root and of all that is under its children holds of all of a tree. -/
theorem forall_mem_subtrees_iff {P : Node → Prop} {tree : Node} :
    (∀ node ∈ tree.subtrees, P node) ↔
      P tree ∧ ∀ child ∈ tree.children, ∀ node ∈ child.subtrees, P node := by
  rw [subtrees_eq, List.forall_mem_cons, List.forall_mem_flatMap]

/-- What is under a child is under its parent. -/
theorem mem_subtrees_of_mem_children {node child tree : Node} (hchild : child ∈ tree.children)
    (h : node ∈ child.subtrees) : node ∈ tree.subtrees :=
  mem_subtrees_iff.2 (.inr ⟨child, hchild, h⟩)

/-- What is under a node is under whatever the node is under. -/
theorem mem_subtrees_trans {inner node tree : Node} (h : inner ∈ node.subtrees)
    (hnode : node ∈ tree.subtrees) : inner ∈ tree.subtrees := by
  induction tree using children_induction with
  | h tree ih =>
    rcases mem_subtrees_iff.1 hnode with rfl | ⟨child, hchild, hunder⟩
    · exact h
    · exact mem_subtrees_of_mem_children hchild (ih child hchild hunder)

/-! ### What the nodes of a tree hold

The names that a tree calls and the texts that stand in it are gathered from its `subtrees`, so each
has one equation: what the root holds, then what the children do (`filterMap_subtrees_eq`). -/

/-- A tree holds what its root and its children hold. -/
theorem filterMap_subtrees_eq {α : Type} (held? : Node → Option α) (tree : Node) :
    tree.subtrees.filterMap held?
      = (held? tree).toList
        ++ tree.children.flatMap fun child => child.subtrees.filterMap held? := by
  have hroot : [tree].filterMap held? = (held? tree).toList := by
    cases h : held? tree <;> simp [h]
  rw [subtrees_eq, ← List.singleton_append, List.filterMap_append, hroot, List.filterMap_flatMap]

/-- The function that a node calls, if it is a call. -/
def callee? : Node → Option String
  | .call _ name _ => some name
  | _ => none

/-- **The functions that are called** anywhere in a tree, in the order of the calls and as often as
they are called. -/
def callees (tree : Node) : List String :=
  tree.subtrees.filterMap callee?

theorem callees_eq (tree : Node) :
    tree.callees = tree.callee?.toList ++ tree.children.flatMap callees :=
  filterMap_subtrees_eq callee? tree

/-- What a child calls, its parent calls. -/
theorem mem_callees_of_mem_children {name : String} {child tree : Node}
    (hchild : child ∈ tree.children) (h : name ∈ child.callees) : name ∈ tree.callees := by
  rw [callees_eq]
  exact List.mem_append_right _ (List.mem_flatMap.2 ⟨child, hchild, h⟩)

/-- The text of a node, if it is text. -/
def content? : Node → Option String
  | .text _ content => some content
  | _ => none

/-- **The texts** that stand anywhere in a tree, in the order in which they stand. The values of
literals are not among them. -/
def contents (tree : Node) : List String :=
  tree.subtrees.filterMap content?

theorem contents_eq (tree : Node) :
    tree.contents = tree.content?.toList ++ tree.children.flatMap contents :=
  filterMap_subtrees_eq content? tree

end Stencil.Node
