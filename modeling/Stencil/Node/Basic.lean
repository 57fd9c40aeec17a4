import Stencil.Location

/-!
# Template trees

A template is a tree of nodes. Expressions (references, calls, literals) compute values; all other
nodes are statements and append output. One type holds both sorts, and nothing checks where a node
stands: a tree built by hand may put a statement where an expression belongs, and running it is
what finds out. Every node carries its location.
-/

namespace Stencil

/-- **The kinds of block**, which differ in what their body sees as data, and how often it runs.
When they run it is decided alike for all three. -/
inductive BlockKind
  /-- runs its body once, on the same data -/
  | ifBlock
  /-- runs its body once for every item -/
  | range
  /-- runs its body once, on the value of its expression -/
  | withBlock
  deriving DecidableEq, Repr, Inhabited

/-- The word that opens a block. -/
def BlockKind.keyword : BlockKind → String
  | .ifBlock => "if"
  | .range => "range"
  | .withBlock => "with"

/-- **A node of a template tree.** Statements and expressions are nodes of one type, so a tree made
by hand may have one where the other belongs; a run fails when it comes there. -/
inductive Node
  /-- text that stands as it is -/
  | text (loc : Location) (content : String)
  /-- the value of an expression, put into the output -/
  | interpolation (loc : Location) (expr : Node)
  /-- a chain of properties to follow from the data; the empty chain is the data itself -/
  | reference (loc : Location) (path : List String)
  /-- a function applied to arguments -/
  | call (loc : Location) (name : String) (args : List Node)
  /-- a quoted text -/
  | literal (loc : Location) (value : String)
  /-- another template run in place, on the same data or on data of its own -/
  | inclusion (loc : Location) (name : Node) (data : Option Node)
  /-- a body that runs if its expression holds, with another for when it does not -/
  | block (loc : Location) (kind : BlockKind) (expr body : Node) (orElse : Option Node)
  /-- nodes in a row -/
  | list (loc : Location) (items : List Node)
  deriving Repr

namespace Node

instance : Inhabited Node := ⟨.list default []⟩

/-- Where a node begins. -/
def loc : Node → Location
  | .text loc _ => loc
  | .interpolation loc _ => loc
  | .reference loc _ => loc
  | .call loc _ _ => loc
  | .literal loc _ => loc
  | .inclusion loc _ _ => loc
  | .block loc _ _ _ _ => loc
  | .list loc _ => loc

/-- **Expressions** compute a value; every other node appends output. Running asks this of a node
before it does anything with it, since nothing else keeps the sorts apart. -/
def isExpression : Node → Bool
  | .reference .. | .call .. | .literal .. => true
  | _ => false

/-! ### Equality

Trees are equal if they agree everywhere, locations included. -/

mutual

/-- Whether two trees agree everywhere, locations included. It decides equality, which cannot be
derived for trees with rows of trees in them. -/
def same : Node → Node → Bool
  | .text l s, .text l' s' => l == l' && s == s'
  | .interpolation l e, .interpolation l' e' => l == l' && same e e'
  | .reference l p, .reference l' p' => l == l' && p == p'
  | .call l f as, .call l' f' as' => l == l' && f == f' && sameList as as'
  | .literal l s, .literal l' s' => l == l' && s == s'
  | .inclusion l n d, .inclusion l' n' d' => l == l' && same n n' && sameOption d d'
  | .block l k e b o, .block l' k' e' b' o' =>
    l == l' && k == k' && same e e' && same b b' && sameOption o o'
  | .list l ns, .list l' ns' => l == l' && sameList ns ns'
  | _, _ => false

/-- Whether two rows of trees agree everywhere. -/
def sameList : List Node → List Node → Bool
  | [], [] => true
  | n :: ns, n' :: ns' => same n n' && sameList ns ns'
  | _, _ => false

/-- Whether two trees that may be missing agree everywhere. -/
def sameOption : Option Node → Option Node → Bool
  | none, none => true
  | some n, some n' => same n n'
  | _, _ => false

end

mutual

theorem same_iff : ∀ a b : Node, same a b = true ↔ a = b
  | .text l s, b => by cases b <;> simp [same]
  | .interpolation l e, b => by cases b <;> simp [same, same_iff e]
  | .reference l p, b => by cases b <;> simp [same]
  | .call l f as, b => by cases b <;> simp [same, sameList_iff as, and_assoc]
  | .literal l s, b => by cases b <;> simp [same]
  | .inclusion l n d, b => by cases b <;> simp [same, same_iff n, sameOption_iff d, and_assoc]
  | .block l k e c o, b => by
    cases b <;> simp [same, same_iff e, same_iff c, sameOption_iff o, and_assoc]
  | .list l ns, b => by cases b <;> simp [same, sameList_iff ns]

theorem sameList_iff : ∀ as bs : List Node, sameList as bs = true ↔ as = bs
  | [], bs => by cases bs <;> simp [sameList]
  | a :: as, bs => by cases bs <;> simp [sameList, same_iff a, sameList_iff as]

theorem sameOption_iff : ∀ a b : Option Node, sameOption a b = true ↔ a = b
  | none, b => by cases b <;> simp [sameOption]
  | some a, b => by cases b <;> simp [sameOption, same_iff a]

end

instance : DecidableEq Node := fun a b => decidable_of_iff _ (same_iff a b)

end Node

end Stencil
