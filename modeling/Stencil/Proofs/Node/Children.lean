import Stencil.Node.Children

/-!
# Children as a lens

The children of a node can be read and replaced, and the two go together as they do for a field of
a record: what is put in is read out, putting in what is there changes nothing, and of two
replacements the last one counts (`Node.children_are_a_lens`). Only the number of children can be
wrong, and whether it is depends on the shape of the node alone.
-/

namespace Stencil.Node

/-- **The children of a node are a lens.** A node over its own children is itself. Other children
can take their place exactly if the shape of the node takes that many; if not, the failure names the
shape and the number. If so, they are the children of what comes out, which is of the same shape,
stands in the same place and has the same head, and with it the name or the kind; and whatever is
put in next, or fails to be put in, it is as if it had been put into the node. -/
theorem children_are_a_lens (node : Node) :
    node.withChildren node.children = .ok node ∧
    (∀ cs, (∃ result, node.withChildren cs = .ok result) ↔ node.shape.takes cs.length = true) ∧
    (∀ cs, node.shape.takes cs.length = false →
      node.withChildren cs = .error ⟨node.shape, cs.length⟩) ∧
    ∀ cs result, node.withChildren cs = .ok result →
      result.children = cs ∧ result.shape = node.shape ∧ result.loc = node.loc ∧
        result.head = node.head ∧
        ∀ others, result.withChildren others = node.withChildren others := by
  refine ⟨withChildren_children node, exists_withChildren_iff node, ?_, ?_⟩
  · intro cs htakes
    cases hresult : node.withChildren cs with
    | ok result =>
      have htakes' : node.shape.takes cs.length = true :=
        (exists_withChildren_iff node cs).1 ⟨result, hresult⟩
      rw [htakes] at htakes'
      cases htakes'
    | error e => rw [eq_of_withChildren_eq_error hresult]
  · intro cs result hresult
    obtain ⟨hloc, hhead, hchildren⟩ := of_withChildren_eq_ok hresult
    exact ⟨hchildren, shape_eq_of_head_eq hhead, hloc, hhead, withChildren_of_withChildren hresult⟩

/-- An inclusion that loses its data can be given some again, and no third child. -/
theorem inclusion_takes_data_again :
    let name := literal ⟨"s", 1⟩ "row"
    let data := reference ⟨"s", 2⟩ ["item"]
    let node := inclusion ⟨"s", 1⟩ name (some data)
    let bare := inclusion ⟨"s", 1⟩ name none
    node.withChildren [name] = .ok bare ∧ bare.children = [name] ∧
      bare.withChildren [name, data] = .ok node ∧
      bare.withChildren [name, data, data] = .error ⟨.inclusion, 3⟩ := by
  intro name data node bare
  obtain ⟨-, -, -, hput⟩ := children_are_a_lens node
  obtain ⟨-, -, htakes, -⟩ := children_are_a_lens bare
  obtain ⟨hchildren, -, -, -, hothers⟩ := hput [name] bare rfl
  refine ⟨rfl, hchildren, ?_, htakes [name, data, data] rfl⟩
  rw [hothers]
  exact withChildren_children node

end Stencil.Node
