import Stencil.Node.Children

/-!
# Height

The height of a tree. Children are lower than their parent, so what goes from a node to its children
comes to an end.
-/

namespace Stencil

namespace Node

mutual

/-- **The height of a tree**: the number of nodes on the longest way from its root to a leaf.
Expressions count as well as statements. -/
def height : Node → Nat
  | .text .. | .reference .. | .literal .. => 1
  | .interpolation _ expr => expr.height + 1
  | .call _ _ args => heightOf args + 1
  | .inclusion _ name none => name.height + 1
  | .inclusion _ name (some data) => max name.height data.height + 1
  | .block _ _ expr body none => max expr.height body.height + 1
  | .block _ _ expr body (some orElse) => max expr.height (max body.height orElse.height) + 1
  | .list _ items => heightOf items + 1

/-- The height of the highest of trees in a row. -/
def heightOf : List Node → Nat
  | [] => 0
  | node :: nodes => max node.height (heightOf nodes)

end

/-- **A node is one higher than its highest child.** -/
theorem height_eq (node : Node) : node.height = heightOf node.children + 1 := by
  cases node with
  | inclusion loc name data => cases data <;> simp [height, heightOf, children]
  | block loc kind expr body orElse => cases orElse <;> simp [height, heightOf, children]
  | _ => simp [height, heightOf, children]

theorem height_le_heightOf {node : Node} {nodes : List Node} (h : node ∈ nodes) :
    node.height ≤ heightOf nodes := by
  induction nodes with
  | nil => cases h
  | cons first nodes ih =>
    rw [heightOf]
    rcases List.mem_cons.1 h with rfl | h
    · exact Nat.le_max_left _ _
    · exact Nat.le_trans (ih h) (Nat.le_max_right _ _)

theorem height_pos (node : Node) : 0 < node.height := by
  rw [height_eq]
  exact Nat.succ_pos _

/-- Children are lower than their parent. This is the measure by which recursions over `children`
end. -/
theorem height_lt_of_mem_children {child node : Node} (h : child ∈ node.children) :
    child.height < node.height := by
  rw [height_eq node]
  exact Nat.lt_succ_of_le (height_le_heightOf h)

end Node

end Stencil
