import Stencil.Node.Height
import Stencil.Node.Transform

/-!
# Rebuilding trees

A transformation can be had from children alone: where a visitor descends, the node is put over what
its children became, and where it keeps a node, the node is copied in the same way. Either could
fail, at a node that refuses the number of children it is given (`rebuild`, `copy?`). None does, for
a node is given as many as it had (`rebuild_eq`, `copy?_eq`).
-/

namespace Stencil

namespace Node

section Rebuild

variable {m : Type → Type} [Monad m]

/-- **Rebuilds a tree from the root down** by its children: what is kept goes through `keep`, and
what is gone into is put over its rebuilt children, if it takes them. -/
def rebuild (keep : Node → Except ArityError Node) (visit : Node → m Verdict) (node : Node) :
    ExceptT ArityError m Node := do
  match ← visit node with
  | .replace other => return other
  | .keep => keep node
  | .descend =>
    let children ← node.children.attach.mapM fun ⟨child, _⟩ => rebuild keep visit child
    node.withChildren children
termination_by node.height
decreasing_by exact height_lt_of_mem_children ‹_›

variable [LawfulMonad m]

/-- A row of computations that do not fail does not fail either, and does what the computations
without failure would do one after the other. -/
theorem mapM_eq_liftM {f : Node → ExceptT ArityError m Node} {g : Node → m Node}
    {nodes : List Node} (h : ∀ node ∈ nodes, f node = liftM (g node)) :
    nodes.mapM f = liftM (nodes.mapM g) := by
  induction nodes with
  | nil => simp
  | cons node nodes ih =>
    obtain ⟨hnode, hnodes⟩ := List.forall_mem_cons.1 h
    rw [List.mapM_cons, List.mapM_cons, hnode, ih hnodes]
    simp

/-- **No node refuses what its children became**: where keeping a node gives the node, rebuilding a
tree is transforming it. By induction on the tree: by `exists_descent`, what its children become is
put over the node with `withChildren` on both sides. -/
theorem rebuild_eq {keep : Node → Except ArityError Node} (hkeep : ∀ node, keep node = .ok node)
    (visit : Node → m Verdict) (node : Node) :
    rebuild keep visit node = liftM (node.transform visit) := by
  induction node using children_induction with
  | h node ih =>
    obtain ⟨descent, hrun, hdescent⟩ := exists_descent visit node
    have hchildren : (node.children.attach.mapM fun ⟨child, _⟩ => rebuild keep visit child)
        = liftM (node.children.mapM (transform visit)) := by
      rw [← mapM_eq_liftM ih]
      simp
    rw [rebuild, hrun, consult, liftM_bind]
    -- both ask the visitor first, and then go by its answer
    refine bind_congr fun verdict => ?_
    cases verdict with
    | replace other => simp
    | keep =>
      rw [hkeep, liftM_pure]
      rfl
    | descend =>
      -- the number of children did not change, so the node takes them
      apply ExceptT.ext
      rw [ExceptT.run_liftM, ← hdescent, hchildren, map_eq_pure_bind]
      exact ExceptT.run_bind_lift _ _

end Rebuild

/-! ### Copies

Copying is rebuilding with a visitor that descends everywhere. A visitor that keeps a node has it
copied, so `copy?_eq` is also what makes `keep` harmless in `rebuild_eq`. -/

/-- **A copy is the tree itself**, so a caller cannot tell whether it has one. -/
theorem copy_eq (node : Node) : node.copy = node := by
  induction node using children_induction with
  | h node ih =>
    have hchildren : node.children.map (rewrite fun _ => .descend) = node.children :=
      (List.map_congr_left ih).trans (List.map_id _)
    have hnode : node.withChildren (node.children.map (rewrite fun _ => .descend))
        = .ok node.copy :=
      withChildren_rewrite rfl
    rw [hchildren, withChildren_children] at hnode
    exact (Except.ok.inj hnode).symm

/-- **A copy of a tree**, rebuilt node by node from its children, as a visitor does it that goes
into everything. -/
def copy? (node : Node) : Except ArityError Node :=
  Id.run (rebuild .ok (fun _ => return .descend) node).run

/-- **Copying never fails.** So a copy may stand for the tree wherever a subtree is kept. -/
theorem copy?_eq (node : Node) : node.copy? = .ok node := by
  have hcopy : node.copy? = .ok node.copy := by
    rw [copy?, rebuild_eq (fun _ => rfl), ExceptT.run_liftM]
    rfl
  rw [hcopy, copy_eq]

end Node

end Stencil
