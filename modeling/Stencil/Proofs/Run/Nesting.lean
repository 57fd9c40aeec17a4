import Mathlib.Algebra.GroupWithZero.Nat
import Mathlib.Algebra.Order.BigOperators.Group.Finset
import Stencil.Node.Height
import Stencil.Proofs.Document.Language
import Stencil.Proofs.Run.Causes
import Stencil.Proofs.Run.Extension

/-!
# How deep a run nests

Where every inclusion names its template by a literal, and no template comes to include itself, a
run ends, and how deep its statements are nested in one another is bounded by the trees alone
(`TemplateSet.nesting_is_bounded`). A statement has room for itself and for every template that its
own template may come to include. A part of it has less, for it is lower; so has the root of a
template that it includes, which from there on cannot come again. A range may go over any number of
items, but they are not nested in one another.
-/

namespace Stencil

/-! ### Sets without recursion

The bound has to hold for all data, so it counts trees and not runs. From a template a chain of
nested statements can go down its tree and into the trees that it may come to include, each of them
once only, as none leads back. `heightBelow` sums these up, and an inclusion goes to a template for
which it is smaller by the height of that tree at least. -/

namespace TemplateSet

/-- **A template includes another** one of the set: an inclusion in its tree names it. Whether a run
ever comes to that inclusion does not matter. -/
def Includes (set : TemplateSet) (outer inner : String) : Prop :=
  inner ∈ set.names ∧ ∃ root loc nameLoc data, set.template? outer = some root ∧
    Node.inclusion loc (.literal nameLoc inner) data ∈ root.subtrees

/-- **Inclusions are layered**: what they name is there to be read, and never leads back. The names
need not be templates of the set, as the run fails where one is missing. -/
structure IsLayered (set : TemplateSet) : Prop where
  /-- the name of every inclusion is a literal -/
  literal : ∀ outer root, set.template? outer = some root → ∀ loc name data,
    Node.inclusion loc name data ∈ root.subtrees → ∃ nameLoc inner, name = .literal nameLoc inner
  /-- no template includes itself, directly or through others -/
  acyclic : ∀ name, ¬ Relation.TransGen set.Includes name name

/-- Inclusions that only go down in rank never lead back. -/
theorem not_transGen_of_rank {set : TemplateSet} (rank : String → Nat)
    (h : ∀ outer inner, set.Includes outer inner → rank inner < rank outer) (name : String) :
    ¬ Relation.TransGen set.Includes name name := by
  intro hcycle
  -- by induction along the inclusions the rank has gone down
  have hdown : ∀ other, Relation.TransGen set.Includes name other → rank other < rank name := by
    intro other hother
    induction hother with
    | single hfirst => exact h _ _ hfirst
    | tail _ hlast ih => exact (h _ _ hlast).trans ih
  exact Nat.lt_irrefl _ (hdown name hcycle)

/-- The sum of the heights of all trees: the room for a chain that goes through every one of them
from the root down. -/
def totalHeight (set : TemplateSet) : Nat :=
  (set.templates.entries.map fun entry => entry.2.height).sum

/-- The height of the tree of a name, if there is one. -/
def heightAt (set : TemplateSet) (name : String) : Nat :=
  ((set.template? name).map Node.height).getD 0

theorem heightAt_of_some {set : TemplateSet} {name : String} {root : Node}
    (h : set.template? name = some root) : set.heightAt name = root.height := by
  rw [heightAt, h]
  rfl

/-- The trees are those under the names. -/
theorem sum_heightAt (set : TemplateSet) :
    ∑ name ∈ set.names.toFinset, set.heightAt name = set.totalHeight := by
  have hnodup : set.names.Nodup := (NameMap.holds_entries set.templates).nodup
  have hentry : ∀ entry ∈ set.templates.entries, set.heightAt entry.1 = entry.2.height :=
    fun entry hentry => heightAt_of_some (mem_entries_iff.1 hentry)
  rw [List.sum_toFinset _ hnodup, totalHeight, names, NameMap.names, List.map_map]
  exact congrArg List.sum (List.map_congr_left hentry)

open Classical in
/-- **What is below a template**: the sum of the heights of all templates that it may come to
include, itself not counted. -/
noncomputable def heightBelow (set : TemplateSet) (name : String) : Nat :=
  ∑ inner ∈ set.names.toFinset with Relation.TransGen set.Includes name inner, set.heightAt inner

/-- A template of names, with all that is below it, is no higher than all that the names have: it is
not below itself. -/
theorem heightAt_add_heightBelow_le {set : TemplateSet} {name : String} {names : Finset String}
    (hacyclic : ¬ Relation.TransGen set.Includes name name) (hname : name ∈ names)
    (hbelow : ∀ inner ∈ set.names, Relation.TransGen set.Includes name inner → inner ∈ names) :
    set.heightAt name + set.heightBelow name ≤ ∑ inner ∈ names, set.heightAt inner := by
  classical
  -- the template is not below itself, so its height is not counted twice
  have hfresh : name ∉ {inner ∈ set.names.toFinset | Relation.TransGen set.Includes name inner} :=
    fun hmem => hacyclic (Finset.mem_filter.1 hmem).2
  rw [heightBelow, ← Finset.sum_insert hfresh]
  refine Finset.sum_le_sum_of_subset fun inner hinner => ?_
  rcases Finset.mem_insert.1 hinner with rfl | hinner
  · exact hname
  · obtain ⟨hmem, hreach⟩ := Finset.mem_filter.1 hinner
    exact hbelow inner (List.mem_toFinset.1 hmem) hreach

variable {set : TemplateSet}

/-- An included template, with all that is below it, is below the one that includes it. -/
theorem IsLayered.heightBelow_of_includes (h : set.IsLayered) {outer inner : String}
    (hincludes : set.Includes outer inner) :
    set.heightAt inner + set.heightBelow inner ≤ set.heightBelow outer := by
  classical
  refine heightAt_add_heightBelow_le (h.acyclic inner) ?_ ?_
  · exact Finset.mem_filter.2 ⟨List.mem_toFinset.2 hincludes.1, .single hincludes⟩
  · intro other hother hreach
    exact Finset.mem_filter.2 ⟨List.mem_toFinset.2 hother, .head hincludes hreach⟩

/-- A template, with all that is below it, is no higher than all trees. -/
theorem IsLayered.heightBelow_of_template (h : set.IsLayered) {name : String} {root : Node}
    (hroot : set.template? name = some root) :
    root.height + set.heightBelow name ≤ set.totalHeight := by
  rw [← sum_heightAt, ← heightAt_of_some hroot]
  refine heightAt_add_heightBelow_le (h.acyclic name) ?_ ?_
  · exact List.mem_toFinset.2 (mem_names_iff.2 ⟨root, hroot⟩)
  · exact fun inner hinner _ => List.mem_toFinset.2 hinner

end TemplateSet

/-! ### Chains of statements

The room of a statement (`Task.room`) is the measure that goes down: inside a tree the height does,
and at an inclusion what is below the template does. It is never zero, so a chain is no longer than
the room of its first statement. That a run is too deep says that there is a chain longer than its
depth. -/

/-- An inclusion goes on with the template that its name is found to be. -/
theorem Env.eq_string_of_included {env : Env} {loc : Location} {data : Option Node} {value : Value}
    {found : String × Env × Node} (h : env.included loc data value = .ok found) :
    value = .string found.1 := by
  unfold included at h
  split at h
  · split at h
    · cases h
    · obtain ⟨_, -, rfl⟩ := map_eq_ok.1 h
      rfl
  · cases h

namespace Task

variable {set : TemplateSet} {task other : Task}

/-- **What a statement leaves** in a layered set: a part of it, or the root of a template that its
own includes. Without literal names a run could go to any template of the set. -/
theorem Leaves.part_or_included (h : task.Leaves other) (hset : set.IsLayered)
    (htask : task.StandsIn set) :
    (other.template = task.template ∧ other.node ∈ task.node.parts) ∨
      (set.Includes task.template other.template ∧
        set.template? other.template = some other.node) := by
  obtain ⟨action, next, hstep, hother⟩ := h
  obtain ⟨-, hpart | hfind⟩ := mem_of_step hstep hother
  · exact .inl hpart
  obtain ⟨env, template, node⟩ := task
  obtain ⟨rfl, root, hroot, hnode⟩ := htask
  cases node with
  | inclusion loc name data =>
    obtain ⟨value, found, hvalue, hincluded, -, rfl⟩ := step_inclusion_eq_ok.1 hstep
    obtain rfl := List.mem_singleton.1 hother
    obtain ⟨nameLoc, inner, rfl⟩ := hset.literal _ _ hroot _ _ _ hnode
    -- the name is a literal, so its value is what stands there
    obtain rfl : inner = found.1 := by
      have hsame : value = .string found.1 := Env.eq_string_of_included hincluded
      cases hvalue
      exact Value.string.inj hsame
    have hname : found.1 ∈ env.set.names := TemplateSet.mem_names_iff.2 ⟨_, hfind⟩
    exact .inr ⟨⟨hname, root, loc, nameLoc, data, hroot, hnode⟩, hfind⟩
  | block loc kind expr body orElse =>
    obtain ⟨value, nodes, -, hnodes, -, rfl⟩ := step_block_eq_ok.1 hstep
    obtain ⟨node, hmem, rfl⟩ := List.mem_map.1 hother
    exact .inl ⟨rfl, (Env.mem_of_branches hnodes hmem).2⟩
  | list loc items =>
    cases hstep
    obtain ⟨item, hitem, rfl⟩ := List.mem_map.1 hother
    exact .inl ⟨rfl, hitem⟩
  | interpolation loc expr =>
    obtain ⟨value, -, -, rfl⟩ := step_interpolation_eq_ok.1 hstep
    cases hother
  | text =>
    cases hstep
    cases hother
  | reference | call | literal => cases hstep

/-- **The room of a statement**: its own height, and all that is below its template. What is beside
it in its tree is not counted, as it is not nested in it. -/
noncomputable def room (set : TemplateSet) (task : Task) : Nat :=
  task.node.height + set.heightBelow task.template

/-- **What is left has less room**, whether it is a part of the statement or the root of a
template. -/
theorem Leaves.room_lt (h : task.Leaves other) (hset : set.IsLayered) (htask : task.StandsIn set) :
    other.room set < task.room set := by
  rw [room, room]
  -- down in the tree, or out of it to a template that is below
  rcases h.part_or_included hset htask with ⟨htemplate, hpart⟩ | ⟨hincludes, hroot⟩
  · have hlower := Node.height_lt_of_mem_children (Node.mem_children_of_mem_parts hpart)
    rw [htemplate]
    exact Nat.add_lt_add_right hlower _
  · have hbelow := hset.heightBelow_of_includes hincludes
    rw [TemplateSet.heightAt_of_some hroot] at hbelow
    exact Nat.lt_of_le_of_lt hbelow (Nat.lt_add_of_pos_left task.node.height_pos)

/-- So statements that are nested in one another are no more than there is room for. -/
theorem length_le_room {tasks : List Task} (hset : set.IsLayered) (htask : task.StandsIn set)
    (h : List.IsChain Leaves (task :: tasks)) : (task :: tasks).length ≤ task.room set := by
  induction tasks generalizing task with
  | nil => exact Nat.le_add_right_of_le task.node.height_pos
  -- one statement, and the room of the next is less by one at least
  | cons other tasks ih =>
    obtain ⟨hleaves, hrest⟩ := List.isChain_cons_cons.1 h
    have hlength := ih (htask.of_leaves hleaves) hrest
    have hroom := hleaves.room_lt hset htask
    exact Nat.lt_of_le_of_lt hlength hroom

/-- **A run that is too deep** has statements nested in one another, one more than its depth. They
are those that the run was in when it stopped. -/
theorem exists_chain_of_tooDeep {depth : Nat} {start : Task}
    (h : (start.trace depth).halt? = some .tooDeep) :
    ∃ tasks, List.IsChain Leaves (start :: tasks) ∧ tasks.length = depth := by
  induction depth generalizing start with
  | zero => exact ⟨[], .singleton _, rfl⟩
  | succ depth ih =>
    rw [trace] at h
    cases hstep : start.step with
    | error e =>
      rw [hstep] at h
      cases h
    | ok step =>
      obtain ⟨action, next⟩ := step
      rw [hstep] at h
      obtain ⟨trace, htrace, hhalt⟩ := Trace.exists_of_halt_concat h
      obtain ⟨other, hother, rfl⟩ := List.mem_map.1 htrace
      obtain ⟨tasks, hchain, hlength⟩ := ih hhalt
      have hleaves : start.Leaves other := ⟨action, next, hstep, hother⟩
      refine ⟨other :: tasks, List.isChain_cons_cons.2 ⟨hleaves, hchain⟩, ?_⟩
      rw [List.length_cons, hlength]

end Task

/-! ### Runs

Both come together at the root of a template, whose room is no more than the height of all trees.
A run that may nest that deep cannot be too deep, hence it ends, and a greater depth changes
nothing. -/

namespace TemplateSet

variable {set : TemplateSet}

/-- **No chain is longer than all trees are high**, if it begins at a root. -/
theorem IsLayered.length_le_totalHeight (h : set.IsLayered) {data : Value} {name : String}
    {root : Node} {tasks : List Task} (hroot : set.template? name = some root)
    (hchain : List.IsChain Task.Leaves (⟨set.env data, name, root⟩ :: tasks)) :
    tasks.length + 1 ≤ set.totalHeight :=
  (Task.length_le_room h (Task.standsIn_root hroot data) hchain).trans
    (h.heightBelow_of_template hroot)

/-- The run of a template is not too deep if all trees fit. -/
theorem IsLayered.endsOn (h : set.IsLayered) {data : Value} {name : String} {depth : Nat}
    (hdepth : set.totalHeight ≤ depth) (sink : Sink) :
    ((set.env data).execute depth name).EndsOn sink := by
  intro after hdeep
  have hhalt := Env.halt?_of_execute hdeep nofun
  cases hfind : (set.env data).set.template? name with
  | none =>
    rw [Env.trace_of_none hfind] at hhalt
    cases hhalt
  | some root =>
    rw [Env.trace_of_some hfind] at hhalt
    obtain ⟨tasks, hchain, hlength⟩ := Task.exists_chain_of_tooDeep hhalt
    have hbound := h.length_le_totalHeight hfind hchain
    rw [hlength] at hbound
    exact absurd (hbound.trans hdepth) (Nat.not_succ_le_self depth)

/-- **Nesting is bounded by the trees.** In a set whose inclusions are layered, for every template
and all data: statements nested in one another, from the root of the template on, are no more than
the sum of the heights of all trees; a run that may nest that deep ends, whatever it writes to, and
a greater depth changes nothing. -/
theorem nesting_is_bounded (h : set.IsLayered) (data : Value) (name : String) :
    (∀ root tasks, set.template? name = some root →
      List.IsChain Task.Leaves (⟨set.env data, name, root⟩ :: tasks) →
      tasks.length + 1 ≤ set.totalHeight) ∧
    ∀ sink depth, set.totalHeight ≤ depth →
      ((set.env data).execute depth name).EndsOn sink ∧
        (set.env data).execute depth name sink
          = (set.env data).execute set.totalHeight name sink := by
  refine ⟨fun root tasks hroot hchain => h.length_le_totalHeight hroot hchain, ?_⟩
  intro sink depth hdepth
  exact ⟨h.endsOn hdepth sink, Env.execute_eq_of_le (h.endsOn (Nat.le_refl _) sink) hdepth⟩

/-- A page that includes a cell for each of three items: the trees are three and two nodes high. -/
theorem page_of_cells_nests_within_five :
    let cell := Node.interpolation ⟨"cell", 1⟩ (.reference ⟨"cell", 1⟩ [])
    let page := Node.block ⟨"page", 1⟩ .range (.reference ⟨"page", 1⟩ [])
      (.inclusion ⟨"page", 2⟩ (.literal ⟨"page", 2⟩ "cell") none) none
    let set := (setTemplate ∅ "cell" cell).setTemplate "page" page
    let data := Value.array [.string "a", .string "b", .string "c"]
    set.IsLayered ∧ ((set.env data).execute 5 "page").EndsOn Sink.empty ∧
      (set.env data).execute 9 "page" Sink.empty
        = (set.env data).execute 5 "page" Sink.empty := by
  intro cell page set data
  have htrees : ∀ outer root, set.template? outer = some root →
      (outer, root) = ("cell", cell) ∨ (outer, root) = ("page", page) := by
    intro outer root hroot
    have hentry : (outer, root) ∈ [("cell", cell), ("page", page)] := mem_entries_iff.2 hroot
    simpa only [List.mem_cons, List.not_mem_nil, or_false] using hentry
  -- the one inclusion is of the cell, in the page
  have honly : ∀ outer root loc name data, set.template? outer = some root →
      Node.inclusion loc name data ∈ root.subtrees →
      outer = "page" ∧ name = .literal ⟨"page", 2⟩ "cell" := by
    intro outer root loc name data hroot hmem
    rcases htrees outer root hroot with ⟨⟨⟩⟩ | ⟨⟨⟩⟩
    · simp [cell, Node.subtrees] at hmem
    · simp only [page, Node.subtrees, List.mem_cons, List.mem_append, List.not_mem_nil,
        Node.inclusion.injEq, reduceCtorEq, or_false, false_or] at hmem
      exact ⟨rfl, hmem.2.1⟩
  have hset : set.IsLayered := by
    refine ⟨fun outer root hroot loc name data hmem => ?_,
      not_transGen_of_rank (fun name => if name = "page" then 1 else 0) ?_⟩
    · exact ⟨_, _, (honly outer root loc name data hroot hmem).2⟩
    · rintro outer inner ⟨-, root, loc, nameLoc, data, hroot, hmem⟩
      obtain ⟨rfl, hname⟩ := honly outer root loc _ data hroot hmem
      cases hname
      decide
  have hheight : set.totalHeight = 5 := rfl
  have hends := (nesting_is_bounded hset data "page").2 Sink.empty
  rw [hheight] at hends
  exact ⟨hset, (hends 5 (by decide)).1, (hends 9 (by decide)).2⟩

end TemplateSet

end Stencil
