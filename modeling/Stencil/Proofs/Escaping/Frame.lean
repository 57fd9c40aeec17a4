import Mathlib.Data.List.Forall2
import Mathlib.Data.List.Sort
import Stencil.TemplateSet.Escaping

/-!
# What escaping leaves alone

Escaping a template changes its tree and registers a function, and nothing else; if the template is
missing it changes nothing at all (`TemplateSet.escaping_is_framed`). The tree changes only where it
puts values into the output: which places these are, and what stands there then, is said without the
traversal (`Node.Wraps`), and taking the calls away again gives the old tree (`Node.unwrap`). So the
order in which templates are escaped through a function makes no difference.
-/

namespace Stencil

namespace Node

/-! ### Wrapped trees

`Wraps` says how a tree and its escaped tree are related, without a traversal: expressions are taken
as they are, an interpolation gets its call, and other nodes are related child by child. It has one
case for each verdict that the traversal can give, and both directions are proved by induction on
children. -/

/-- Other statements than interpolations, which have their children looked into. -/
def isOuter : Node → Bool
  | .text .. | .inclusion .. | .block .. | .list .. => true
  | .interpolation .. | .reference .. | .call .. | .literal .. => false

/-- **A tree wraps another in a function**: its interpolations hand their values to it. Expressions
stay, and what is neither stays over children that are wrapped. -/
inductive Wraps (function : String) : Node → Node → Prop
  /-- the expression of an interpolation becomes the argument of a call in the same place -/
  | interpolation (loc : Location) (expr : Node) :
    Wraps function (.interpolation loc expr) (.interpolation loc (.call loc function [expr]))
  /-- an expression stays as it is -/
  | expression {expr : Node} : expr.isExpression = true → Wraps function expr expr
  /-- any other statement keeps what it is, where it is, and the number of its children -/
  | outer {node result : Node} {children : List Node} :
    node.isOuter = true →
    List.Forall₂ (Wraps function) node.children children →
    node.withChildren children = .ok result →
    Wraps function node result

variable {function : String} {node result : Node}

theorem escapeVisit_of_isOuter (h : node.isOuter = true) :
    node.escapeVisit function = .descend := by
  cases node <;> first | rfl | cases h

/-- There are three sorts of node. -/
theorem isOuter_cases (node : Node) :
    (∃ loc expr, node = .interpolation loc expr) ∨ node.isExpression = true ∨
      node.isOuter = true := by
  cases node with
  | interpolation loc expr => exact .inl ⟨loc, expr, rfl⟩
  | reference | call | literal => exact .inr (.inl rfl)
  | text | inclusion | block | list => exact .inr (.inr rfl)

/-- An outer statement is escaped child by child. -/
theorem withChildren_escapeThrough (h : node.isOuter = true) :
    node.withChildren (node.children.map (escapeThrough function))
      = .ok (node.escapeThrough function) :=
  withChildren_rewrite (escapeVisit_of_isOuter h)

/-- **Escaping wraps**, at every interpolation that is not inside an expression, and nowhere
else. -/
theorem wraps_escapeThrough (function : String) (node : Node) :
    node.Wraps function (node.escapeThrough function) := by
  induction node using children_induction with
  | h node ih =>
    -- the traversal replaces, keeps, or goes into the children
    obtain ⟨loc, expr, rfl⟩ | hexpression | houter := node.isOuter_cases
    · exact .interpolation loc expr
    · rw [escapeThrough_of_isExpression function hexpression]
      exact .expression hexpression
    · refine .outer houter ?_ (withChildren_escapeThrough houter)
      exact List.forall₂_map_right_iff.2 (List.forall₂_same.2 ih)

/-- **Nothing else wraps**: the old tree and the function decide the new one. So `Wraps` is a
description of escaping, and not only a property of it. -/
theorem Wraps.eq_escapeThrough (h : node.Wraps function result) :
    result = node.escapeThrough function := by
  induction node using children_induction generalizing result with
  | h node ih =>
    cases h with
    | interpolation => rfl
    | expression hexpression => exact (escapeThrough_of_isExpression function hexpression).symm
    | @outer _ _ children houter hchildren hresult =>
      -- the children are the escaped children, by induction
      have hmap : List.Forall₂ (fun child wrapped => escapeThrough function child = wrapped)
          node.children children :=
        ((List.forall₂_and_left _ _).2 ⟨ih, hchildren⟩).imp fun _ _ h => (h.1 h.2).symm
      rw [← List.forall₂_map_left_iff, List.forall₂_eq_eq_eq] at hmap
      rw [← hmap, withChildren_escapeThrough houter] at hresult
      exact (Except.ok.inj hresult).symm

/-! ### Unwrapped trees

Taking the calls away is a traversal of its own. It looks at interpolations only, so it undoes one
escaping at a time, and a tree without such calls stays as it is. -/

/-- What unwrapping makes of a node: the call that an interpolation has for its expression, on the
same line, is taken away. -/
def unwrapVisit (function : String) : Node → Verdict
  | .interpolation loc (.call callLoc name [expr]) =>
    if name = function ∧ callLoc = loc then .replace (.interpolation loc expr) else .keep
  | node => if node.isOuter then .descend else .keep

/-- **A tree without the calls** that wrapping in a function adds. One call is taken off each
interpolation, as one is put on. -/
def unwrap (function : String) (node : Node) : Node :=
  node.rewrite (unwrapVisit function)

theorem unwrapVisit_of_isOuter (h : node.isOuter = true) :
    node.unwrapVisit function = .descend := by
  cases node <;> first | rfl | cases h

theorem unwrapVisit_of_isExpression (h : node.isExpression = true) :
    node.unwrapVisit function = .keep := by
  cases node <;> first | rfl | cases h

/-- Over other children a node is of the same sort. -/
theorem isOuter_of_withChildren {children : List Node}
    (h : node.withChildren children = .ok result) : result.isOuter = node.isOuter := by
  unfold withChildren at h
  split at h <;> first
    | (cases h; rfl)
    | cases h

/-- **Unwrapping takes back what wrapping does**, also if the expression was a call of that function
before. -/
theorem Wraps.unwrap_eq (h : node.Wraps function result) : result.unwrap function = node := by
  induction node using children_induction generalizing result with
  | h node ih =>
    cases h with
    | interpolation loc expr => exact rewrite_of_replace (if_pos ⟨rfl, rfl⟩)
    | expression hexpression => exact rewrite_of_keep (unwrapVisit_of_isExpression hexpression)
    | @outer _ _ children houter hchildren hresult =>
      have hvisit : result.unwrapVisit function = .descend := by
        refine unwrapVisit_of_isOuter ?_
        rw [isOuter_of_withChildren hresult, houter]
      have hmap : List.Forall₂ (fun wrapped child => unwrap function wrapped = child)
          children node.children :=
        (((List.forall₂_and_left _ _).2 ⟨ih, hchildren⟩).imp fun _ _ h => h.1 h.2).flip
      rw [← List.forall₂_map_left_iff, List.forall₂_eq_eq_eq] at hmap
      -- the old children are back, so the old node is
      have hback : result.withChildren node.children = .ok (result.unwrap function) := by
        rw [← hmap, ← children_of_withChildren hresult]
        exact withChildren_rewrite hvisit
      rw [withChildren_of_withChildren hresult, withChildren_children] at hback
      exact (Except.ok.inj hback).symm

end Node

/-! ### Sets

A set is its trees and its functions, both maps by name. Escaping changes one name in each, so what
the set holds afterwards is said by two lookups, and sets are compared through them. -/

namespace TemplateSet

variable {set other : TemplateSet}

/-- Sets that have the same names have them in the same order. -/
theorem names_eq_of_mem_iff (h : ∀ name, name ∈ set.names ↔ name ∈ other.names) :
    set.names = other.names := by
  have hascending : ∀ set : TemplateSet, set.names.Pairwise (· < ·) :=
    fun set => List.pairwise_map.2 set.templates.ascending
  exact (hascending set).eq_of_mem_iff (hascending other) h

/-- **The set after a template is escaped in place**, whether that fails or not. It is what a caller
finds who goes on after a failure. -/
def afterEscaping (name : String) (function : HostFunction) (set : TemplateSet)
    (template : String) : TemplateSet :=
  match escapeInPlace template name function set with
  | .ok _ after | .error _ after => after

variable {template name : String} {function : HostFunction}

/-- **Where the template is missing, escaping fails and changes nothing**: the function is not
registered either. -/
theorem escapeInPlace_of_missing (h : template ∉ set.names) :
    escapeInPlace template name function set = .error (.missingTemplate template) set := by
  rw [escapeInPlace_eq, escapeWith, template?_eq_none_iff.2 h]

theorem afterEscaping_of_missing (h : template ∉ set.names) :
    set.afterEscaping name function template = set := by
  rw [afterEscaping, escapeInPlace_of_missing h]

/-- **Where it is there, the set is escaped**, whatever the name of the function, and whatever it
does. -/
theorem escapeWith_eq_ok (h : template ∈ set.names) :
    set.escapeWith template name function = .ok (set.afterEscaping name function template) := by
  obtain ⟨escaped, hescaped⟩ := exists_escapeWith h name function
  rw [afterEscaping, escapeInPlace_eq, hescaped]

theorem escapeInPlace_of_mem (h : template ∈ set.names) :
    escapeInPlace template name function set
      = .ok () (set.afterEscaping name function template) := by
  rw [escapeInPlace_eq, escapeWith_eq_ok h]

/-- The trees afterwards: that of the template is escaped, and all others are as they were. -/
theorem template?_afterEscaping (set : TemplateSet) (template name : String)
    (function : HostFunction) (other : String) :
    (set.afterEscaping name function template).template? other
      = (set.template? other).map fun root =>
          if other = template then root.escapeThrough name else root := by
  by_cases h : template ∈ set.names
  · exact template?_escapeWith (escapeWith_eq_ok h) other
  · rw [afterEscaping_of_missing h]
    split
    · next heq => rw [heq, template?_eq_none_iff.2 h, Option.map_none]
    · exact Option.map_id'.symm

/-- The functions afterwards: the one is registered if the template is there, and all others are as
they were. -/
theorem find?_functions_afterEscaping (set : TemplateSet) (template name : String)
    (function : HostFunction) (other : String) :
    (set.afterEscaping name function template).functions.find? other
      = if template ∈ set.names ∧ other = name then some function
        else set.functions.find? other := by
  by_cases h : template ∈ set.names
  · rw [find?_functions_escapeWith (escapeWith_eq_ok h)]
    simp only [h, true_and]
  · rw [afterEscaping_of_missing h, if_neg fun hand => h hand.1]

theorem names_afterEscaping (set : TemplateSet) (template name : String) (function : HostFunction) :
    (set.afterEscaping name function template).names = set.names := by
  refine names_eq_of_mem_iff fun other => ?_
  rw [mem_names_iff, mem_names_iff, template?_afterEscaping]
  cases set.template? other <;> simp

/-- **Of two templates, either may be escaped first.** Each changes its own tree, and both register
the same function. -/
theorem afterEscaping_comm (set : TemplateSet) (name : String) (function : HostFunction)
    (first second : String) :
    (set.afterEscaping name function first).afterEscaping name function second
      = (set.afterEscaping name function second).afterEscaping name function first := by
  refine ext_find? (fun other => ?_) (fun other => ?_)
  · simp only [template?_afterEscaping, Option.map_map]
    refine congrArg (fun change => (set.template? other).map change) (funext fun root => ?_)
    -- a name that is both is escaped twice, whichever comes first
    simp only [Function.comp_apply]
    split_ifs <;> rfl
  · simp only [find?_functions_afterEscaping, names_afterEscaping]
    split <;> split <;> rfl

/-- **The set after templates are escaped**, one after the other, whether that fails or not. -/
def afterAll (name : String) (function : HostFunction) (set : TemplateSet)
    (templates : List String) : TemplateSet :=
  templates.foldl (afterEscaping name function) set

/-- **The order makes no difference**: the sets for two templates are equal in either order, and a
permutation is made of exchanges of two. -/
theorem afterAll_perm {templates others : List String} (h : templates.Perm others)
    (set : TemplateSet) (name : String) (function : HostFunction) :
    set.afterAll name function templates = set.afterAll name function others :=
  h.foldl_eq' (fun first _ second _ set => afterEscaping_comm set name function first second) set

/-- Templates that are all there are escaped without a failure. -/
theorem forM_escapeInPlace {templates : List String}
    (h : ∀ template ∈ templates, template ∈ set.names) :
    (templates.forM fun template => escapeInPlace template name function) set
      = .ok () (set.afterAll name function templates) := by
  induction templates generalizing set with
  | nil => rfl
  | cons template templates ih =>
    obtain ⟨hfirst, hrest⟩ := List.forall_mem_cons.1 h
    have hothers : ∀ other ∈ templates,
        other ∈ (set.afterEscaping name function template).names := by
      rwa [names_afterEscaping]
    -- the first succeeds and leaves all names, so the others are still there
    show EStateM.bind (escapeInPlace template name function)
      (fun _ => templates.forM fun template => escapeInPlace template name function) set = _
    rw [EStateM.bind, escapeInPlace_of_mem hfirst]
    exact ih hothers

/-- **Escaping is framed.** If the template is missing, escaping it fails for that, and the set is
as it was. Otherwise it succeeds; the names stay, so do all other trees and functions, the function
is registered, and the new tree wraps the old one in it: without the calls that wrapping adds it is
the old one again. And templates may be escaped through a function in any order, whether they are
there or not: the set is the same in the end, and if all are there, then nothing fails. -/
theorem escaping_is_framed (set : TemplateSet) (name : String) (function : HostFunction) :
    (∀ template, template ∉ set.names →
      escapeInPlace template name function set = .error (.missingTemplate template) set) ∧
    (∀ template root, set.template? template = some root →
      ∃ escaped tree, escapeInPlace template name function set = .ok () escaped ∧
        escaped.names = set.names ∧
        (∀ other, other ≠ template → escaped.template? other = set.template? other) ∧
        (∀ other, other ≠ name → escaped.functions.find? other = set.functions.find? other) ∧
        escaped.functions.find? name = some function ∧
        escaped.template? template = some tree ∧ root.Wraps name tree ∧ tree.unwrap name = root) ∧
    ∀ templates others, templates.Perm others →
      set.afterAll name function templates = set.afterAll name function others ∧
        ((∀ template ∈ templates, template ∈ set.names) →
          (templates.forM fun template => escapeInPlace template name function) set
              = .ok () (set.afterAll name function templates) ∧
            (others.forM fun template => escapeInPlace template name function) set
              = .ok () (set.afterAll name function templates)) := by
  refine ⟨fun template hmissing => escapeInPlace_of_missing hmissing, ?_, ?_⟩
  · intro template root hroot
    have hmem : template ∈ set.names := mem_names_iff.2 ⟨root, hroot⟩
    have hwraps := Node.wraps_escapeThrough name root
    refine ⟨_, root.escapeThrough name, escapeInPlace_of_mem hmem, names_afterEscaping .., ?_, ?_,
      ?_, ?_, hwraps, hwraps.unwrap_eq⟩
    · intro other hother
      rw [template?_afterEscaping]
      simp only [hother, if_false, Option.map_id']
    · intro other hother
      rw [find?_functions_afterEscaping, if_neg fun hand => hother hand.2]
    · rw [find?_functions_afterEscaping, if_pos ⟨hmem, rfl⟩]
    · rw [template?_afterEscaping, hroot, Option.map_some, if_pos rfl]
  · intro templates others hperm
    refine ⟨afterAll_perm hperm set name function, fun hall => ⟨forM_escapeInPlace hall, ?_⟩⟩
    rw [afterAll_perm hperm]
    exact forM_escapeInPlace fun template hmem => hall template (hperm.mem_iff.2 hmem)

/-- A head and a foot made safe in either order, in a set that has no bar to make safe. -/
theorem head_and_foot_are_escaped_in_either_order :
    let head := Node.list ⟨"s", 1⟩ [.text ⟨"s", 1⟩ "Hi ",
      .interpolation ⟨"s", 1⟩ (.reference ⟨"s", 1⟩ ["name"])]
    let foot := Node.interpolation ⟨"s", 2⟩ (.reference ⟨"s", 2⟩ [])
    let set := (setTemplate ∅ "head" head).setTemplate "foot" foot
    let safe (template : String) := escapeInPlace template htmlEscaperName htmlEscaper
    safe "bar" set = .error (.missingTemplate "bar") set ∧
      (∃ escaped tree, safe "head" set = .ok () escaped ∧ escaped.template? "foot" = some foot ∧
        escaped.template? "head" = some tree ∧ tree.unwrap htmlEscaperName = head) ∧
      ["head", "foot"].forM safe set = ["foot", "head"].forM safe set := by
  intro head foot set safe
  obtain ⟨hmissing, hframe, hperm⟩ := escaping_is_framed set htmlEscaperName htmlEscaper
  refine ⟨hmissing "bar" (by decide), ?_, ?_⟩
  · obtain ⟨escaped, tree, hescaped, -, hothers, -, -, htree, -, hunwrap⟩ := hframe "head" head rfl
    exact ⟨escaped, tree, hescaped, hothers "foot" (by decide), htree, hunwrap⟩
  · obtain ⟨-, hall⟩ := hperm ["head", "foot"] ["foot", "head"] (.swap _ _ _)
    obtain ⟨hfirst, hsecond⟩ := hall (by decide)
    exact hfirst.trans hsecond.symm

end TemplateSet

end Stencil
