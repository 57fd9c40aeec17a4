import Stencil.Node.Basic

/-!
# Children

A node's children in a fixed order, and the node with other children in their place. The
shape of a node says how many it takes; where two numbers are allowed, the last child is an
optional one. A node is its location, its head and its children, and putting in other children is
the one way to get another node of that location and head (`withChildren_eq_ok_iff`); how reading
and replacing children agree follows from that.
-/

namespace Stencil

/-- **The shape of a node**: what it is, without its location, payload and children. It decides how
many children there may be, and messages speak of it. -/
inductive Shape
  /-- text that stands as it is -/
  | text
  /-- an interpolated expression -/
  | interpolation
  /-- a property chain -/
  | reference
  /-- a function call -/
  | call
  /-- a quoted text -/
  | literal
  /-- an included template -/
  | inclusion
  /-- a block of some kind -/
  | block (kind : BlockKind)
  /-- a row of nodes -/
  | list
  deriving DecidableEq, Repr

namespace Shape

/-- Whether a node of the shape may have a number of children. -/
def takes : Shape → Nat → Bool
  | .text, n | .reference, n | .literal, n => n == 0
  | .interpolation, n => n == 1
  | .inclusion, n => n == 1 || n == 2
  | .block _, n => n == 2 || n == 3
  | .call, _ | .list, _ => true

/-- What messages call a node of the shape. -/
def label : Shape → String
  | .text => "text"
  | .interpolation => "interpolation"
  | .reference => "reference"
  | .call => "call"
  | .literal => "string literal"
  | .inclusion => "template"
  | .block kind => kind.keyword
  | .list => "list"

/-- The numbers of children a node of the shape may have, in words. -/
def arityText : Shape → String
  | .text | .reference | .literal => "0"
  | .interpolation => "1"
  | .inclusion => "1 or 2"
  | .block _ => "2 or 3"
  | .call | .list => "any number of"

end Shape

/-- **A wrong number of children** for a shape. It is all that can go wrong when children are
replaced: what they are is not looked at. -/
structure ArityError where
  /-- the shape that was to be filled -/
  shape : Shape
  /-- the number of children it was given -/
  given : Nat
  deriving DecidableEq, Repr

/-- The message of a wrong number of children. -/
def ArityError.message (e : ArityError) : String :=
  e.shape.label ++ " node takes " ++ e.shape.arityText ++ " children, got " ++ Nat.repr e.given

namespace Node

/-- The shape of a node. -/
def shape : Node → Shape
  | .text .. => .text
  | .interpolation .. => .interpolation
  | .reference .. => .reference
  | .call .. => .call
  | .literal .. => .literal
  | .inclusion .. => .inclusion
  | .block _ kind _ _ _ => .block kind
  | .list .. => .list

/-- **The children of a node**: of an inclusion its name and data, of a block its
expression, body and alternative. -/
def children : Node → List Node
  | .text .. | .reference .. | .literal .. => []
  | .interpolation _ expr => [expr]
  | .call _ _ args => args
  | .inclusion _ name data => name :: data.toList
  | .block _ _ expr body orElse => expr :: body :: orElse.toList
  | .list _ items => items

/-- **The same node over other children**: its shape, location and payload stay. A number of
children that the shape does not take is an error; nothing else can go wrong, and the children
themselves are not looked at. -/
def withChildren (node : Node) (children : List Node) : Except ArityError Node :=
  match node, children with
  | .text loc content, [] => .ok (.text loc content)
  | .reference loc path, [] => .ok (.reference loc path)
  | .literal loc value, [] => .ok (.literal loc value)
  | .interpolation loc _, [expr] => .ok (.interpolation loc expr)
  | .call loc name _, args => .ok (.call loc name args)
  | .inclusion loc _ _, [name] => .ok (.inclusion loc name none)
  | .inclusion loc _ _, [name, data] => .ok (.inclusion loc name (some data))
  | .block loc kind _ _ _, [expr, body] => .ok (.block loc kind expr body none)
  | .block loc kind _ _ _, [expr, body, orElse] => .ok (.block loc kind expr body (some orElse))
  | .list loc _, items => .ok (.list loc items)
  | node, children => .error ⟨node.shape, children.length⟩

/-- A node over its own children is itself. Only where a child may be missing does this depend on
whether it is there. -/
theorem withChildren_children (node : Node) : node.withChildren node.children = .ok node := by
  cases node with
  | inclusion loc name data => cases data <;> rfl
  | block loc kind expr body orElse => cases orElse <;> rfl
  | _ => rfl

/-! ### Heads

What `withChildren` keeps of a node is its location and its head. So two nodes that agree in both
become the same over the same children, and the laws of `withChildren` need to compare heads only,
not constructors with constructors. -/

/-- **The head of a node**: all that it is but its location and its children. Unlike the shape it
has the payload: the text, the property chain, or the name. -/
inductive Head
  /-- text that stands as it is -/
  | text (content : String)
  /-- an interpolated expression -/
  | interpolation
  /-- a property chain -/
  | reference (path : List String)
  /-- a call of a function -/
  | call (name : String)
  /-- a quoted text -/
  | literal (value : String)
  /-- an included template -/
  | inclusion
  /-- a block of some kind -/
  | block (kind : BlockKind)
  /-- a row of nodes -/
  | list
  deriving DecidableEq, Repr

/-- The shape that a head gives a node. -/
def Head.shape : Head → Shape
  | .text _ => .text
  | .interpolation => .interpolation
  | .reference _ => .reference
  | .call _ => .call
  | .literal _ => .literal
  | .inclusion => .inclusion
  | .block kind => .block kind
  | .list => .list

/-- The head of a node. -/
def head : Node → Head
  | .text _ content => .text content
  | .interpolation .. => .interpolation
  | .reference _ path => .reference path
  | .call _ name _ => .call name
  | .literal _ value => .literal value
  | .inclusion .. => .inclusion
  | .block _ kind _ _ _ => .block kind
  | .list .. => .list

theorem shape_head (node : Node) : node.head.shape = node.shape := by
  cases node <;> rfl

theorem shape_eq_of_head_eq {node other : Node} (h : node.head = other.head) :
    node.shape = other.shape := by
  rw [← shape_head, h, shape_head]

/-! ### Other children

All laws follow from one equivalence, `withChildren_eq_ok_iff`: what comes out has the location and
the head of the node and the children that were put in, and there is one such node at most
(`ext_head`). -/

section WithChildren

variable {node other result : Node} {cs : List Node}

/-- With other children a node stands where it stood, has the head it had, and has them. -/
theorem of_withChildren_eq_ok (h : node.withChildren cs = .ok result) :
    result.loc = node.loc ∧ result.head = node.head ∧ result.children = cs := by
  unfold withChildren at h
  split at h <;> first
    | (cases h; exact ⟨rfl, rfl, rfl⟩)
    | cases h

theorem children_of_withChildren (h : node.withChildren cs = .ok result) :
    result.children = cs :=
  (of_withChildren_eq_ok h).2.2

/-- A wrong number of children is told with the shape that was to be filled. -/
theorem eq_of_withChildren_eq_error {e : ArityError} (h : node.withChildren cs = .error e) :
    e = ⟨node.shape, cs.length⟩ := by
  unfold withChildren at h
  split at h <;> cases h
  rfl

/-- **What a node becomes depends on its location and its head** and not on the children it had, nor
on how many these were. -/
theorem withChildren_congr (hloc : node.loc = other.loc) (hhead : node.head = other.head)
    (cs : List Node) : node.withChildren cs = other.withChildren cs := by
  -- no shape tells more than three children apart
  cases node <;> cases other <;> cases hhead <;> obtain rfl := hloc <;>
    rcases cs with _ | ⟨_, _ | ⟨_, _ | ⟨_, _ | ⟨_, _⟩⟩⟩⟩ <;> rfl

/-- **A node over other children** is the node of the same location and head that has them.
Everything else about replaced children follows from this. -/
theorem withChildren_eq_ok_iff :
    node.withChildren cs = .ok result ↔
      result.loc = node.loc ∧ result.head = node.head ∧ result.children = cs := by
  refine ⟨of_withChildren_eq_ok, ?_⟩
  rintro ⟨hloc, hhead, rfl⟩
  rw [← withChildren_congr hloc hhead]
  exact withChildren_children result

/-- **A node is its location, its head and its children**: nothing else is in it, and two nodes that
agree in the three are equal. -/
theorem ext_head (hloc : node.loc = other.loc) (hhead : node.head = other.head)
    (hchildren : node.children = other.children) : node = other := by
  have hnode : other.withChildren other.children = .ok node :=
    withChildren_eq_ok_iff.2 ⟨hloc, hhead, hchildren⟩
  rw [withChildren_children] at hnode
  exact (Except.ok.inj hnode).symm

/-- Of children that are put in one after the other, the last ones count. -/
theorem withChildren_of_withChildren (h : node.withChildren cs = .ok result)
    (others : List Node) : result.withChildren others = node.withChildren others := by
  obtain ⟨hloc, hhead, -⟩ := of_withChildren_eq_ok h
  exact withChildren_congr hloc hhead others

/-- **A node takes as many children as its shape does.** Among the shapes calls and lists take any
number, and a block two or three. -/
theorem exists_withChildren_iff (node : Node) (cs : List Node) :
    (∃ result, node.withChildren cs = .ok result) ↔ node.shape.takes cs.length = true := by
  cases node <;> rcases cs with _ | ⟨_, _ | ⟨_, _ | ⟨_, _ | ⟨_, _⟩⟩⟩⟩ <;>
    simp [withChildren, shape, Shape.takes]

end WithChildren

/-! ### Induction

The type of nodes is nested: children stand in lists and in optional places. `children_induction`
hides that. Its one case is that of a node of which all `children` are known to have the property,
whatever constructor the node is made with. -/

mutual

/-- **Induction over trees**: what holds of a node if it holds of its children holds of all nodes.
-/
theorem children_induction {P : Node → Prop}
    (h : ∀ node, (∀ child ∈ node.children, P child) → P node) : ∀ node, P node
  | .text .. => h _ nofun
  | .reference .. => h _ nofun
  | .literal .. => h _ nofun
  | .interpolation _ expr => h _ (List.forall_mem_singleton.2 (children_induction h expr))
  | .call _ _ args => h _ (children_induction_list h args)
  | .inclusion _ name none => h _ (List.forall_mem_singleton.2 (children_induction h name))
  | .inclusion _ name (some data) =>
    h _ (List.forall_mem_cons.2
      ⟨children_induction h name, List.forall_mem_singleton.2 (children_induction h data)⟩)
  | .block _ _ expr body none =>
    h _ (List.forall_mem_cons.2
      ⟨children_induction h expr, List.forall_mem_singleton.2 (children_induction h body)⟩)
  | .block _ _ expr body (some orElse) =>
    h _ (List.forall_mem_cons.2 ⟨children_induction h expr, List.forall_mem_cons.2
      ⟨children_induction h body, List.forall_mem_singleton.2 (children_induction h orElse)⟩⟩)
  | .list _ items => h _ (children_induction_list h items)

theorem children_induction_list {P : Node → Prop}
    (h : ∀ node, (∀ child ∈ node.children, P child) → P node) : ∀ nodes : List Node,
    ∀ node ∈ nodes, P node
  | [] => nofun
  | node :: nodes =>
    List.forall_mem_cons.2 ⟨children_induction h node, children_induction_list h nodes⟩

end

end Node

end Stencil
