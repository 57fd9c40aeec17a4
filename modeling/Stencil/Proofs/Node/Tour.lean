import Mathlib.Data.List.Forall2
import Mathlib.Data.List.Nodup
import Stencil.Proofs.Node.Rebuilding

/-!
# The tour of a transformation

A transformation takes its visitor on a tour of the tree (`transform_is_a_tour`). The visitor sees
the nodes that no answer to a node above them has closed off, each once, in the order in which they
stand in the tree, and no node that it put there itself. What it does to the tree can be read off
its answers, place by place: every node that it sees gives way to what becomes of it on its own,
from the state that the visitor is in when it comes there. So where nothing is replaced, the tree
stays.

The places are positions, chains of child numbers (`Position`). The tour of a node that is gone into
is made of those of its children (`IsTour.descend`); which state each of them starts in is known
from their run one after the other (`exists_tours`).
-/

namespace Stencil

namespace Node

/-! ### Positions

A position is a chain of child numbers from the root down. Prefixes of a position are the positions
above it, and the order of lists is the order in which a walk comes by: parents before children, and
earlier siblings with all that is under them before later ones. -/

/-- **A position in a tree**: which child to go to, and on from there. Their order is that of the
tree, a node before all that is under it. -/
abbrev Position := List Nat

/-- The node at a position of a tree, if there is one. -/
def at? (tree : Node) : Position → Option Node
  | [] => some tree
  | i :: rest => tree.children[i]?.bind fun child => child.at? rest

theorem at?_append (tree : Node) (position rest : Position) :
    tree.at? (position ++ rest) = (tree.at? position).bind fun node => node.at? rest := by
  induction position generalizing tree with
  | nil => rfl
  | cons i position ih =>
    rw [List.cons_append, at?, at?]
    cases tree.children[i]? with
    | none => rfl
    | some child => exact ih child

/-! ### Encounters

What the visitor sees is an `Exchange`. Where in the tree it sees it is not for the visitor to know,
so the position is added by an `Encounter`. The same node may stand in several places, and be
answered differently in each, as the visitor may have changed its state in between. -/

/-- **An exchange with a visitor**: the state it is in, the node it is shown, and its answer. What
the visitor makes of its state is seen in the next exchange. -/
structure Exchange (σ : Type) where
  /-- the state before -/
  state : σ
  /-- the node that is shown -/
  node : Node
  /-- the answer -/
  verdict : Verdict

/-- **An encounter on a tour**: an exchange about the node at a position. The same node may stand at
several positions, and each is an encounter of its own. -/
structure Encounter (σ : Type) extends Exchange σ where
  /-- where the node stands -/
  position : Position

namespace Encounter

variable {σ : Type}

/-- What becomes of the node on its own. -/
def outcome (visit : Node → StateM σ Verdict) (e : Encounter σ) : Node :=
  (e.node.transform visit e.state).1

/-- **What an answer makes of the node**: another node, the same one, or one that differs from it in
the children and not in their number. -/
def Makes (e : Encounter σ) (after : Node) : Prop :=
  match e.verdict with
  | .replace other => after = other
  | .keep => after = e.node
  | .descend => after.loc = e.node.loc ∧ after.head = e.node.head ∧
      after.children.length = e.node.children.length

/-- An encounter in a child, as it is in the parent. -/
def under (i : Nat) (e : Encounter σ) : Encounter σ :=
  { e with position := i :: e.position }

end Encounter

/-! ### Tours

`IsTour` compares three things: the tree, what the transformation leaves of it, and the list of
encounters. It does not speak of how the visitor was run. That the encounters are those of the
actual run is said apart, by the log that is kept of it (`Takes`). -/

variable {σ : Type}

/-- **A position lies open** if every node that was encountered above it was gone into. A node that
was replaced or kept closes off all positions below its own. -/
def LiesOpen (encounters : List (Encounter σ)) (position : Position) : Prop :=
  ∀ e ∈ encounters, e.position <+: position → e.position ≠ position → e.verdict = .descend

theorem liesOpen_nil (encounters : List (Encounter σ)) : LiesOpen encounters [] := by
  intro e _ hprefix hne
  exact absurd (List.prefix_nil.1 hprefix) hne

/-- **A tour of a tree** by a visitor, and what it leaves of the tree. It is a description from
outside: which nodes are shown, in which order, and what becomes of each. -/
structure IsTour (visit : Node → StateM σ Verdict) (tree result : Node)
    (encounters : List (Encounter σ)) : Prop where
  /-- the visitor is shown nodes of the tree -/
  shown : ∀ e ∈ encounters, tree.at? e.position = some e.node
  /-- what it answers, it answers in the state it is in -/
  answered : ∀ e ∈ encounters, (visit e.node e.state).1 = e.verdict
  /-- it is shown what lies open -/
  reached_iff : ∀ position, (∃ e ∈ encounters, e.position = position) ↔
    (tree.at? position).isSome = true ∧ LiesOpen encounters position
  /-- it is shown every node once, parents before children, and siblings in their order -/
  ascending : encounters.Pairwise fun e f => e.position < f.position
  /-- every node gives way to what becomes of it on its own, and that is what the answer says -/
  made : ∀ e ∈ encounters,
    result.at? e.position = some (e.outcome visit) ∧ e.Makes (e.outcome visit)

namespace IsTour

variable {visit : Node → StateM σ Verdict} {tree result : Node} {encounters : List (Encounter σ)}

/-- No position is encountered twice. -/
theorem eq_of_position_eq (h : IsTour visit tree result encounters) {e f : Encounter σ}
    (he : e ∈ encounters) (hf : f ∈ encounters) (hposition : e.position = f.position) : e = f := by
  -- positions ascend strictly, so they are all different
  have hnodup : (encounters.map Encounter.position).Nodup := by
    refine List.pairwise_map.2 (h.ascending.imp ?_)
    intro e f hlt heq
    rw [heq] at hlt
    exact List.lt_irrefl _ hlt
  exact List.inj_on_of_nodup_map hnodup he hf hposition

/-- **The children of a node that is gone into are encountered**, and each gives way to what becomes
of it. -/
theorem exists_of_descend (h : IsTour visit tree result encounters) {e : Encounter σ}
    (he : e ∈ encounters) (hdescend : e.verdict = .descend) {i : Nat} {child : Node}
    (hchild : e.node.children[i]? = some child) :
    ∃ f ∈ encounters, f.position = e.position ++ [i] ∧ f.node = child ∧
      (e.outcome visit).children[i]? = some (f.outcome visit) := by
  have hat : tree.at? (e.position ++ [i]) = some child := by
    rw [at?_append, h.shown e he, Option.bind_some, at?, hchild]
    rfl
  obtain ⟨-, habove⟩ := (h.reached_iff e.position).1 ⟨e, he, rfl⟩
  -- above the child stand its parent, which was gone into, and what is above the parent, which lies
  -- open
  have hopen : LiesOpen encounters (e.position ++ [i]) := by
    intro f hf hprefix hne
    rcases List.prefix_concat_iff.1 hprefix with hsame | hprefix
    · exact absurd hsame hne
    by_cases hsame : f.position = e.position
    · rwa [h.eq_of_position_eq hf he hsame]
    · exact habove f hf hprefix hsame
  obtain ⟨f, hf, hposition⟩ := (h.reached_iff _).2 ⟨by rw [hat]; rfl, hopen⟩
  have hnode := h.shown f hf
  rw [hposition, hat] at hnode
  refine ⟨f, hf, hposition, (Option.some.inj hnode).symm, ?_⟩
  -- what the tour leaves is read at both positions, once from the parent and once from the child
  obtain ⟨hparent, -⟩ := h.made e he
  obtain ⟨hbelow, -⟩ := h.made f hf
  rw [hposition, at?_append, hparent, Option.bind_some, at?] at hbelow
  simpa [at?] using hbelow

/-- **A tour on which nothing is replaced leaves the tree as it is**, whatever the visitor does with
its state. -/
theorem eq_of_forall_ne_replace (h : IsTour visit tree result encounters)
    (hstays : ∀ e ∈ encounters, ∀ other, e.verdict ≠ .replace other) : result = tree := by
  -- over the node that is encountered, for its children are encountered elsewhere
  have houtcome (node : Node) : ∀ e ∈ encounters, e.node = node → e.outcome visit = node := by
    induction node using children_induction with
    | h node ih =>
      rintro e he rfl
      obtain ⟨-, hmade⟩ := h.made e he
      rw [Encounter.Makes] at hmade
      split at hmade
      · next other hreplace => exact absurd hreplace (hstays e he other)
      · exact hmade
      · next hdescend =>
        obtain ⟨hloc, hhead, hlength⟩ := hmade
        refine ext_head hloc hhead (List.ext_getElem? fun i => ?_)
        cases hchild : e.node.children[i]? with
        | none =>
          rw [List.getElem?_eq_none_iff] at hchild ⊢
          omega
        | some child =>
          obtain ⟨f, hf, -, hnode, houtcome⟩ := h.exists_of_descend he hdescend hchild
          rw [houtcome, ih child (List.mem_of_getElem? hchild) f hf hnode]
  obtain ⟨root, hroot, hposition⟩ := (h.reached_iff []).2 ⟨rfl, liesOpen_nil _⟩
  have hnode := h.shown root hroot
  obtain ⟨hat, -⟩ := h.made root hroot
  rw [hposition] at hnode hat
  calc
    result = root.outcome visit := Option.some.inj hat
    _ = root.node := houtcome _ root hroot rfl
    _ = tree := (Option.some.inj hnode).symm

end IsTour

/-! ### Tours of children

The tour of a node that is gone into is its own encounter, then those of its children, with the
number of the child before each position. Each field of `IsTour` passes from the children to the
node by itself; `reached_iff` is the one that has to look at the root as well, for an answer there
closes off everything. -/

/-- **The encounters in the children of a node**, as they are in the node: one child after the
other, with the number of the child before each position. -/
def encountersIn (outcomes : List (Node × List (Encounter σ))) : List (Encounter σ) :=
  (outcomes.mapIdx fun i outcome => outcome.2.map (Encounter.under i)).flatten

section Children

variable {visit : Node → StateM σ Verdict} {tree result : Node} {state : σ}
variable {outcomes : List (Node × List (Encounter σ))}

theorem mem_encountersIn {e : Encounter σ} :
    e ∈ encountersIn outcomes ↔
      ∃ (i : Nat) (outcome : Node × List (Encounter σ)), outcomes[i]? = some outcome ∧
        ∃ f ∈ outcome.2, f.under i = e := by
  simp only [encountersIn, List.mem_flatten, List.mem_mapIdx]
  constructor
  · rintro ⟨_, ⟨i, hi, rfl⟩, he⟩
    exact ⟨i, outcomes[i], List.getElem?_eq_getElem hi, List.mem_map.1 he⟩
  · rintro ⟨i, outcome, houtcome, he⟩
    obtain ⟨hi, rfl⟩ := List.getElem?_eq_some_iff.1 houtcome
    exact ⟨_, ⟨i, hi, rfl⟩, List.mem_map.2 he⟩

/-- What was said does not depend on where. -/
theorem map_toExchange_encountersIn (outcomes : List (Node × List (Encounter σ))) :
    (encountersIn outcomes).map Encounter.toExchange
      = outcomes.flatMap fun outcome => outcome.2.map Encounter.toExchange := by
  rw [encountersIn, List.map_flatten, List.flatMap_def]
  refine congrArg List.flatten (List.ext_getElem (by simp) fun i hi hi' => ?_)
  simp [Encounter.under, Function.comp_def]

/-- At a position that leads into a child is encountered what is encountered in the child. -/
theorem exists_mem_encountersIn_iff {i : Nat} {rest : Position} :
    (∃ e ∈ encountersIn outcomes, e.position = i :: rest) ↔
      ∃ outcome, outcomes[i]? = some outcome ∧ ∃ f ∈ outcome.2, f.position = rest := by
  constructor
  · rintro ⟨e, he, hposition⟩
    obtain ⟨j, outcome, houtcome, f, hf, rfl⟩ := mem_encountersIn.1 he
    obtain ⟨rfl, hrest⟩ := List.cons.inj hposition
    exact ⟨outcome, houtcome, f, hf, hrest⟩
  · rintro ⟨outcome, houtcome, f, hf, rfl⟩
    exact ⟨f.under i, mem_encountersIn.2 ⟨i, outcome, houtcome, f, hf, rfl⟩, rfl⟩

/-- Where the root is gone into, it closes nothing off. -/
theorem liesOpen_cons_iff {outcome : Node × List (Encounter σ)} {i : Nat}
    (houtcome : outcomes[i]? = some outcome) (rest : Position) :
    LiesOpen (⟨⟨state, tree, .descend⟩, []⟩ :: encountersIn outcomes) (i :: rest) ↔
      LiesOpen outcome.2 rest := by
  constructor
  · intro h f hf hprefix hne
    have hmem : f.under i ∈ encountersIn outcomes :=
      mem_encountersIn.2 ⟨i, outcome, houtcome, f, hf, rfl⟩
    refine h (f.under i) (List.mem_cons_of_mem _ hmem) (List.cons_prefix_cons.2 ⟨rfl, hprefix⟩) ?_
    intro heq
    exact hne (List.cons.inj heq).2
  · intro h e he hprefix hne
    rcases List.mem_cons.1 he with rfl | he
    · rfl
    obtain ⟨j, other, hother, f, hf, rfl⟩ := mem_encountersIn.1 he
    obtain ⟨rfl, hrest⟩ := List.cons_prefix_cons.1 hprefix
    obtain rfl : other = outcome := Option.some.inj (hother.symm.trans houtcome)
    refine h f hf hrest ?_
    rintro rfl
    exact hne rfl

/-- Positions ascend through the children. -/
theorem pairwise_encountersIn
    (h : ∀ outcome ∈ outcomes, outcome.2.Pairwise fun e f => e.position < f.position) :
    (encountersIn outcomes).Pairwise fun e f => e.position < f.position := by
  refine List.pairwise_flatten.2 ⟨?_, List.pairwise_iff_getElem.2 ?_⟩
  · intro encounters hmem
    obtain ⟨i, hi, rfl⟩ := List.mem_mapIdx.1 hmem
    refine List.pairwise_map.2 ((h _ (List.getElem_mem hi)).imp ?_)
    intro e f hlt
    exact List.cons_lt_cons_iff.2 (.inr ⟨rfl, hlt⟩)
  · intro i j hi hj hlt e he f hf
    rw [List.getElem_mapIdx] at he hf
    obtain ⟨e, -, rfl⟩ := List.mem_map.1 he
    obtain ⟨f, -, rfl⟩ := List.mem_map.1 hf
    exact List.cons_lt_cons_iff.2 (.inl hlt)

/-- What came of the children came of one child each. -/
theorem exists_child_of_forall₂ {children : List Node}
    (h : List.Forall₂ (fun child outcome => IsTour visit child outcome.1 outcome.2)
      children outcomes)
    {i : Nat} {outcome : Node × List (Encounter σ)} (houtcome : outcomes[i]? = some outcome) :
    ∃ child, children[i]? = some child ∧ IsTour visit child outcome.1 outcome.2 := by
  obtain ⟨hlength, htours⟩ := List.forall₂_iff_get.1 h
  obtain ⟨hi, rfl⟩ := List.getElem?_eq_some_iff.1 houtcome
  have hi' : i < children.length := hlength ▸ hi
  exact ⟨_, List.getElem?_eq_getElem hi', htours i hi' hi⟩

/-- What is encountered in the children is encountered on the tour of one of them, at a position
that begins with the number of that child. -/
theorem exists_of_mem_encountersIn {children : List Node}
    (h : List.Forall₂ (fun child outcome => IsTour visit child outcome.1 outcome.2)
      children outcomes) {e : Encounter σ} (he : e ∈ encountersIn outcomes) :
    ∃ (i : Nat) (child : Node) (outcome : Node × List (Encounter σ)),
      children[i]? = some child ∧ outcomes[i]? = some outcome ∧
        IsTour visit child outcome.1 outcome.2 ∧ ∃ f ∈ outcome.2, f.under i = e := by
  obtain ⟨i, outcome, houtcome, hencounter⟩ := mem_encountersIn.1 he
  obtain ⟨child, hchild, htour⟩ := exists_child_of_forall₂ h houtcome
  exact ⟨i, child, outcome, hchild, houtcome, htour, hencounter⟩

/-- Below a node that is gone into, what lies open is encountered. -/
theorem reached_below_iff
    (h : List.Forall₂ (fun child outcome => IsTour visit child outcome.1 outcome.2)
      tree.children outcomes) (i : Nat) (rest : Position) :
    (∃ e ∈ encountersIn outcomes, e.position = i :: rest) ↔
      (tree.at? (i :: rest)).isSome = true ∧
        LiesOpen (⟨⟨state, tree, .descend⟩, []⟩ :: encountersIn outcomes) (i :: rest) := by
  rw [exists_mem_encountersIn_iff]
  cases houtcome : outcomes[i]? with
  | none =>
    have hlength := h.length_eq
    have hnone : tree.children[i]? = none := by
      rw [List.getElem?_eq_none_iff] at houtcome ⊢
      omega
    simp [at?, hnone]
  | some outcome =>
    obtain ⟨child, hchild, htour⟩ := exists_child_of_forall₂ h houtcome
    rw [liesOpen_cons_iff houtcome, at?, hchild, Option.bind_some, ← htour.reached_iff]
    simp

/-- **A node that is not gone into** is a tour of its own, of a single encounter. -/
theorem IsTour.alone {verdict : Verdict} (hdescend : verdict ≠ .descend)
    (hanswer : (visit tree state).1 = verdict) (hresult : (tree.transform visit state).1 = result)
    (hmade : Encounter.Makes ⟨⟨state, tree, verdict⟩, []⟩ result) :
    IsTour visit tree result [⟨⟨state, tree, verdict⟩, []⟩] where
  shown := by simp [at?]
  answered := by simpa using hanswer
  reached_iff position := by
    cases position with
    | nil => simp [at?, liesOpen_nil]
    | cons i rest => simp [LiesOpen, hdescend]
  ascending := List.pairwise_singleton _ _
  made := by
    subst hresult
    simpa [at?, Encounter.outcome] using hmade

/-- **The tour of a node that is gone into** goes to it and through its children, each a tour of
that child. -/
theorem IsTour.descend
    (h : List.Forall₂ (fun child outcome => IsTour visit child outcome.1 outcome.2)
      tree.children outcomes)
    (hanswer : (visit tree state).1 = .descend) (hresult : (tree.transform visit state).1 = result)
    (hchildren : tree.withChildren (outcomes.map Prod.fst) = .ok result) :
    IsTour visit tree result (⟨⟨state, tree, .descend⟩, []⟩ :: encountersIn outcomes) := by
  obtain ⟨hloc, hhead, hchildren⟩ := of_withChildren_eq_ok hchildren
  constructor
  case shown =>
    rw [List.forall_mem_cons]
    refine ⟨rfl, ?_⟩
    intro e he
    obtain ⟨i, child, outcome, hchild, -, htour, f, hf, rfl⟩ := exists_of_mem_encountersIn h he
    rw [Encounter.under, at?, hchild]
    exact htour.shown f hf
  case answered =>
    rw [List.forall_mem_cons]
    refine ⟨hanswer, ?_⟩
    intro e he
    obtain ⟨i, child, outcome, -, -, htour, f, hf, rfl⟩ := exists_of_mem_encountersIn h he
    exact htour.answered f hf
  -- at the root itself there is nothing above that could close it off
  case reached_iff =>
    intro position
    cases position with
    | nil => exact ⟨fun _ => ⟨rfl, liesOpen_nil _⟩, fun _ => ⟨_, List.mem_cons_self, rfl⟩⟩
    | cons i rest =>
      rw [← reached_below_iff h]
      simp
  case ascending =>
    rw [List.pairwise_cons]
    constructor
    · intro e he
      obtain ⟨i, outcome, houtcome, f, hf, rfl⟩ := mem_encountersIn.1 he
      exact List.nil_lt_cons _ _
    · apply pairwise_encountersIn
      intro outcome hmem
      obtain ⟨i, houtcome⟩ := List.getElem?_of_mem hmem
      obtain ⟨child, -, htour⟩ := exists_child_of_forall₂ h houtcome
      exact htour.ascending
  -- below the root, what is left of the tree is what is left of the child
  case made =>
    subst hresult
    rw [List.forall_mem_cons]
    refine ⟨⟨rfl, hloc, hhead, ?_⟩, ?_⟩
    · simp [Encounter.outcome, hchildren, h.length_eq]
    · intro e he
      obtain ⟨i, child, outcome, -, houtcome, htour, f, hf, rfl⟩ :=
        exists_of_mem_encountersIn h he
      obtain ⟨hat, hmade⟩ := htour.made f hf
      refine ⟨?_, hmade⟩
      rw [Encounter.under, at?, hchildren, List.getElem?_map, houtcome]
      exact hat

end Children

/-! ### Runs

A stateful visitor is in some state when it comes to a node, and that state depends on all nodes
before. The lemmas of this section run one node from a state that is given; `exists_tours` runs a
row of trees, and passes the state that one leaves to the next. -/

section Runs

variable {visit : Node → StateM σ Verdict} {tree : Node} {state middle : σ}

/-- What is replaced is gone. -/
theorem transform_of_replace {other : Node} (h : visit tree state = (.replace other, middle)) :
    tree.transform visit state = (other, middle) := by
  obtain ⟨descent, hrun, -⟩ := exists_descent visit tree
  simp only [hrun, consult, bind, StateT.bind, h]
  rfl

/-- What is kept stays. -/
theorem transform_of_keep (h : visit tree state = (.keep, middle)) :
    tree.transform visit state = (tree, middle) := by
  obtain ⟨descent, hrun, -⟩ := exists_descent visit tree
  simp only [hrun, consult, bind, StateT.bind, h]
  rfl

/-- What is gone into stays over what becomes of its children, one after the other. -/
theorem exists_transform_of_descend {children : List Node} {after : σ}
    (h : visit tree state = (.descend, middle))
    (hchildren : tree.children.mapM (transform visit) middle = (children, after)) :
    ∃ result, tree.withChildren children = .ok result ∧
      tree.transform visit state = (result, after) := by
  obtain ⟨descent, hrun, hdescent⟩ := exists_descent visit tree
  obtain ⟨result, last, hlast⟩ : ∃ result last, descent middle = (result, last) := ⟨_, _, rfl⟩
  have hmiddle := congrFun hdescent middle
  simp only [Functor.map, StateT.map, bind, hchildren, hlast, pure] at hmiddle
  obtain ⟨hresult, rfl⟩ := Prod.mk.inj hmiddle
  refine ⟨result, hresult, ?_⟩
  simp only [hrun, consult, bind, StateT.bind, h]
  exact hlast

/-- **The visitor that keeps a log** of what is said, and else is the same. The log is part of the
state, so it is written in the order of the visits. -/
def logged (visit : Node → StateM σ Verdict) (node : Node) :
    StateM (σ × List (Exchange σ)) Verdict := fun (state, log) =>
  let (verdict, after) := visit node state
  (verdict, after, log ++ [⟨state, node, verdict⟩])

theorem logged_eq {verdict : Verdict} (h : visit tree state = (verdict, middle))
    (log : List (Exchange σ)) :
    logged visit tree (state, log) = (verdict, middle, log ++ [⟨state, tree, verdict⟩]) := by
  simp only [logged, h]

/-- **A transformation takes a tour** to a result and a state, and leaves it behind in any log. -/
structure Takes (visit : Node → StateM σ Verdict) (tree : Node) (state : σ) (result : Node)
    (after : σ) (encounters : List (Encounter σ)) : Prop where
  /-- what the visitor saw and did is a tour -/
  isTour : IsTour visit tree result encounters
  /-- without a log -/
  run : tree.transform visit state = (result, after)
  /-- with a log -/
  run_logged : ∀ log, tree.transform (logged visit) (state, log)
    = (result, after, log ++ encounters.map Encounter.toExchange)

/-- Trees in a row are toured one after the other. -/
theorem exists_tours {trees : List Node}
    (h : ∀ tree ∈ trees, ∀ state, ∃ result after encounters,
      Takes visit tree state result after encounters) (state : σ) :
    ∃ (outcomes : List (Node × List (Encounter σ))) (after : σ),
      List.Forall₂ (fun child outcome => IsTour visit child outcome.1 outcome.2) trees outcomes ∧
      trees.mapM (transform visit) state = (outcomes.map Prod.fst, after) ∧
      ∀ log, trees.mapM (transform (logged visit)) (state, log) = (outcomes.map Prod.fst, after,
        log ++ (encountersIn outcomes).map Encounter.toExchange) := by
  induction trees generalizing state with
  | nil =>
    refine ⟨[], state, .nil, rfl, ?_⟩
    intro log
    rw [map_toExchange_encountersIn, List.flatMap_nil, List.append_nil]
    rfl
  | cons tree trees ih =>
    obtain ⟨hfirst, hrest⟩ := List.forall_mem_cons.1 h
    -- the second run begins in the state, and with the log, that the first tree leaves
    obtain ⟨result, middle, encounters, htakes⟩ := hfirst state
    obtain ⟨outcomes, after, htours, hruns, hlogs⟩ := ih hrest middle
    refine ⟨(result, encounters) :: outcomes, after, .cons htakes.isTour htours, ?_, ?_⟩
    · rw [List.mapM_cons]
      simp only [bind, StateT.bind, htakes.run, hruns]
      rfl
    · intro log
      rw [List.mapM_cons]
      simp only [bind, StateT.bind, htakes.run_logged, hlogs, map_toExchange_encountersIn,
        List.append_assoc, List.flatMap_cons]
      rfl

/-- **Every transformation takes a tour.** With and without a log, the tour of a node is put
together from its children's in the same way. -/
theorem exists_takes (visit : Node → StateM σ Verdict) (tree : Node) (state : σ) :
    ∃ result after encounters, Takes visit tree state result after encounters := by
  induction tree using children_induction generalizing state with
  | h tree ih =>
    obtain ⟨verdict, middle, hvisit⟩ : ∃ verdict middle, visit tree state = (verdict, middle) :=
      ⟨_, _, rfl⟩
    have hanswer : (visit tree state).1 = verdict := by rw [hvisit]
    have hlogged := logged_eq hvisit
    -- an answer other than `descend` ends the tour at this node
    cases verdict with
    | replace other =>
      have hrun := transform_of_replace hvisit
      have htour : IsTour visit tree other [⟨⟨state, tree, .replace other⟩, []⟩] :=
        .alone nofun hanswer (by rw [hrun]) rfl
      exact ⟨other, middle, _, htour, hrun, fun log => transform_of_replace (hlogged log)⟩
    | keep =>
      have hrun := transform_of_keep hvisit
      have htour : IsTour visit tree tree [⟨⟨state, tree, .keep⟩, []⟩] :=
        .alone nofun hanswer (by rw [hrun]) rfl
      exact ⟨tree, middle, _, htour, hrun, fun log => transform_of_keep (hlogged log)⟩
    | descend =>
      obtain ⟨outcomes, after, htours, hruns, hlogs⟩ := exists_tours ih middle
      obtain ⟨result, hresult, hrun⟩ := exists_transform_of_descend hvisit hruns
      have htour := IsTour.descend htours hanswer (by rw [hrun]) hresult
      refine ⟨result, after, _, htour, hrun, ?_⟩
      intro log
      -- the run with the log makes the same of the children, so it is the same result
      obtain ⟨result', hresult', hlog⟩ := exists_transform_of_descend (hlogged log) (hlogs _)
      obtain rfl := Except.ok.inj (hresult.symm.trans hresult')
      rw [hlog, List.append_assoc]
      rfl

/-- **A transformation is a tour of the tree.** It never puts a node over a number of children that
the node refuses, be it where a node is gone into or where one is kept. The visitor is shown the
nodes that lie open, in their order, and no others; each gives way to what its answer makes of it,
and a node that is gone into stays, over what becomes of each child. Where nothing is replaced the
tree comes out as it went in, and so does every copy. -/
theorem transform_is_a_tour (visit : Node → StateM σ Verdict) (tree : Node) (state : σ) :
    rebuild copy? visit tree = liftM (tree.transform visit) ∧
    (∃ result after encounters, tree.transform visit state = (result, after) ∧
      tree.transform (logged visit) (state, [])
        = (result, after, encounters.map Encounter.toExchange) ∧
      IsTour visit tree result encounters ∧
      (∀ e ∈ encounters, e.verdict = .descend →
        ∀ (i : Nat) (child : Node), e.node.children[i]? = some child →
          ∃ f ∈ encounters, f.position = e.position ++ [i] ∧ f.node = child ∧
            (e.outcome visit).children[i]? = some (f.outcome visit)) ∧
      ((∀ e ∈ encounters, ∀ other, e.verdict ≠ .replace other) → result = tree)) ∧
    tree.copy? = .ok tree ∧ tree.copy = tree := by
  obtain ⟨result, after, encounters, htour, hrun, hlog⟩ := exists_takes visit tree state
  refine ⟨rebuild_eq copy?_eq visit tree, ?_, copy?_eq tree, copy_eq tree⟩
  refine ⟨result, after, encounters, hrun, hlog [], htour, ?_, htour.eq_of_forall_ne_replace⟩
  intro e he hdescend i child hchild
  exact htour.exists_of_descend he hdescend hchild

/-- A visitor with two descents to spend sees a page, its first row and the text in it, and passes
over what the second row contains. -/
theorem second_row_is_passed_over :
    let visit : Node → StateM Nat Verdict := fun _ left =>
      (if left = 0 then .keep else .descend, left - 1)
    let cell := text ⟨"page", 2⟩ "cell"
    let row := list ⟨"page", 2⟩ [cell]
    let page := list ⟨"page", 1⟩ [row, row]
    (page.transform (logged visit) (2, [])).2.2
        = [⟨2, page, .descend⟩, ⟨1, row, .descend⟩, ⟨0, cell, .keep⟩, ⟨0, row, .keep⟩] ∧
      (page.transform visit 2).1 = page := by
  intro visit cell row page
  have hlogged : page.transform (logged visit) (2, [])
      = (page, 0, [⟨2, page, .descend⟩, ⟨1, row, .descend⟩, ⟨0, cell, .keep⟩, ⟨0, row, .keep⟩]) :=
    rfl
  obtain ⟨-, ⟨result, after, encounters, hrun, hlog, -, -, hsame⟩, -⟩ :=
    transform_is_a_tour visit page 2
  rw [hlogged] at hlog
  obtain ⟨-, hexchanges⟩ := Prod.mk.inj (Prod.mk.inj hlog).2
  refine ⟨by rw [hlogged], ?_⟩
  rw [hrun]
  -- nothing is replaced in any of the four exchanges
  apply hsame
  intro e he other hreplace
  have hmem : e.toExchange ∈ encounters.map Encounter.toExchange := List.mem_map_of_mem he
  rw [← hexchanges] at hmem
  simp only [List.mem_cons, List.not_mem_nil, or_false] at hmem
  rcases hmem with hmem | hmem | hmem | hmem <;> rw [hmem] at hreplace <;> cases hreplace

end Runs

end Node

end Stencil
