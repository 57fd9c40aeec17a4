import Stencil.Node.Children

/-!
# Transforming trees

`transform` shows the nodes of a tree to a visitor, from the root down, and the visitor decides of
each whether another tree takes its place, its subtree stays, or its children are next
(`Verdict`). The visitor may carry state through any monad. A node that is gone into keeps all but
its children, so no arity can go wrong.
-/

namespace Stencil

/-- **What a visitor decides** about a node. It sees the node as it was, before anything under it is
changed. -/
inductive Verdict
  /-- this tree takes its place -/
  | replace (node : Node)
  /-- its subtree stays as it is -/
  | keep
  /-- its children are visited, and it stays over what becomes of them -/
  | descend
  deriving Repr

namespace Node

variable {m : Type → Type} [Monad m]

/-- Asks a visitor about a node. Where it says to go on, `descend` is what rebuilds the node from
its children. The visitor is asked once, and before any of the children are looked at. -/
def consult (visit : Node → m Verdict) (node : Node) (descend : m Node) : m Node := do
  match ← visit node with
  | .replace other => return other
  | .keep => return node
  | .descend => descend

mutual

/-- **Transforms a tree from the root down**, siblings in the order of the children. The visitor may
carry a state, which it finds as the visits before have left it. -/
def transform (visit : Node → m Verdict) : Node → m Node
  | .text loc content => consult visit (.text loc content) (return .text loc content)
  | .reference loc path => consult visit (.reference loc path) (return .reference loc path)
  | .literal loc value => consult visit (.literal loc value) (return .literal loc value)
  | .interpolation loc expr =>
    consult visit (.interpolation loc expr) do
      return .interpolation loc (← transform visit expr)
  | .call loc name args =>
    consult visit (.call loc name args) do
      return .call loc name (← transformList visit args)
  | .inclusion loc name data =>
    consult visit (.inclusion loc name data) do
      let name ← transform visit name
      let data ← transformOption visit data
      return .inclusion loc name data
  | .block loc kind expr body orElse =>
    consult visit (.block loc kind expr body orElse) do
      let expr ← transform visit expr
      let body ← transform visit body
      let orElse ← transformOption visit orElse
      return .block loc kind expr body orElse
  | .list loc items =>
    consult visit (.list loc items) do
      return .list loc (← transformList visit items)

/-- Transforms a row of trees, first to last. -/
def transformList (visit : Node → m Verdict) : List Node → m (List Node)
  | [] => return []
  | node :: nodes => do
    let node ← transform visit node
    let nodes ← transformList visit nodes
    return node :: nodes

/-- Transforms a tree that may be missing. -/
def transformOption (visit : Node → m Verdict) : Option Node → m (Option Node)
  | none => return none
  | some node => return some (← transform visit node)

end

/-! ### Descending

The eight cases of `transform` differ in their children only. `exists_descent` says once what they
have in common, for every lawful monad: the visitor is asked, and if it says to go on, the children
are transformed from first to last and the node is put over what comes of them. No later proof goes
through the cases again. -/

section Lawful

variable [LawfulMonad m]

/-- Rows of trees are transformed tree by tree. -/
theorem transformList_eq_mapM (visit : Node → m Verdict) (nodes : List Node) :
    transformList visit nodes = nodes.mapM (transform visit) := by
  induction nodes with
  | nil => rw [transformList, List.mapM_nil]
  | cons node nodes ih => rw [transformList, ih, List.mapM_cons]

/-- **A node that is gone into stays over what becomes of its children**, which are transformed one
after the other. It takes as many as it had. -/
theorem exists_descent (visit : Node → m Verdict) (node : Node) :
    ∃ descent : m Node, node.transform visit = consult visit node descent ∧
      node.withChildren <$> node.children.mapM (transform visit) = Except.ok <$> descent := by
  -- a child that may be missing is a row of none or one; with that, the do-blocks and the row of
  -- children agree by the laws of the monad
  cases node with
  | inclusion loc name data =>
    refine ⟨_, rfl, ?_⟩
    cases data <;> simp [children, withChildren, transformOption]
  | block loc kind expr body orElse =>
    refine ⟨_, rfl, ?_⟩
    cases orElse <;> simp [children, withChildren, transformOption]
  | call | list =>
    refine ⟨_, rfl, ?_⟩
    simp only [children, transformList_eq_mapM, bind_pure_comp, Functor.map_map]
    rfl
  | text | reference | literal | interpolation =>
    refine ⟨_, rfl, ?_⟩
    simp [children, withChildren]

end Lawful

/-! ### Visitors without state

Without state the order of the visits cannot be seen, and a transformation is a function from trees
to trees. Its three equations, one for each verdict, are what the passes over templates are reasoned
about with. -/

/-- **A tree rewritten** by a visitor that carries no state, so that every subtree is rewritten in
the same way wherever it stands. -/
def rewrite (visit : Node → Verdict) (node : Node) : Node :=
  Id.run (node.transform fun node => return visit node)

section Rewrite

variable {visit : Node → Verdict} {node other : Node}

/-- Rows of trees are rewritten tree by tree. -/
theorem transformList_pure (visit : Node → Verdict) (nodes : List Node) :
    Id.run (transformList (fun node => return visit node) nodes) = nodes.map (rewrite visit) := by
  induction nodes with
  | nil => rfl
  | cons node nodes ih =>
    rw [List.map_cons, ← ih]
    rfl

theorem transformOption_pure (visit : Node → Verdict) (node? : Option Node) :
    Id.run (transformOption (fun node => return visit node) node?)
      = node?.map (rewrite visit) := by
  cases node? <;> rfl

/-- **How a node is rewritten**, by what its visitor decides. Where that is to go on, it is put over
its rewritten children. -/
theorem exists_rewritten (visit : Node → Verdict) (node : Node) :
    ∃ rewritten, node.withChildren (node.children.map (rewrite visit)) = .ok rewritten ∧
      node.rewrite visit = match visit node with
        | .replace other => other
        | .keep => node
        | .descend => rewritten := by
  obtain ⟨descent, hrun, hdescent⟩ := exists_descent (m := Id) (fun node => return visit node) node
  have hchildren : Id.run (node.children.mapM (transform fun node => return visit node))
      = node.children.map (rewrite visit) := by
    rw [← transformList_eq_mapM, transformList_pure]
  refine ⟨Id.run descent, ?_, ?_⟩
  · rw [← hchildren]
    exact congrArg Id.run hdescent
  · rw [rewrite, hrun, consult]
    cases visit node <;> rfl

/-- What is replaced is gone. -/
theorem rewrite_of_replace (h : visit node = .replace other) : node.rewrite visit = other := by
  obtain ⟨rewritten, -, hnode⟩ := exists_rewritten visit node
  rw [hnode, h]

/-- What is kept stays. -/
theorem rewrite_of_keep (h : visit node = .keep) : node.rewrite visit = node := by
  obtain ⟨rewritten, -, hnode⟩ := exists_rewritten visit node
  rw [hnode, h]

/-- **What is gone into stays over what becomes of its children.** Their number is the same, so
putting them in does not fail. -/
theorem withChildren_rewrite (h : visit node = .descend) :
    node.withChildren (node.children.map (rewrite visit)) = .ok (node.rewrite visit) := by
  obtain ⟨rewritten, hchildren, hnode⟩ := exists_rewritten visit node
  rw [hchildren, hnode, h]

end Rewrite

/-- **A copy**: the tree rebuilt from its leaves. It goes by way of a visitor that goes into
everything. -/
def copy (node : Node) : Node :=
  Id.run (node.transform fun _ => return .descend)

end Node

end Stencil
