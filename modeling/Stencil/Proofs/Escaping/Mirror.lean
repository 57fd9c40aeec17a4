import Stencil.Node.Subtrees
import Stencil.Proofs.Run.Trace
import Stencil.TemplateSet.Escaping

/-!
# Runs of escaped sets

Escaping a template changes what its interpolations put into the output and nothing else. The run of
an escaped set mirrors that of the set as it was, event by event: on the same data, with the same
writes, inclusions and decisions, but a value that an interpolation of the escaped template puts
goes through the function first, and the run stops there if the function fails
(`TemplateSet.escapeWith_mirrors`). All that is asked for is that the name of the function is not in
use: no tree of the set may call it. The trees may be malformed.
-/

namespace Stencil

/-! ### Expressions depend on the functions they call

The escaped set has one function more, or another under a name that it had. Expressions that do not
call that name have the same values in both sets. -/

mutual

/-- **The value of an expression depends on the data and on the functions it calls**, and on nothing
else of the set. -/
theorem evaluate_congr {env other : Env} (hdata : env.data = other.data) : ∀ {expr : Node},
    (∀ name ∈ expr.callees, env.set.functions.find? name = other.set.functions.find? name) →
      evaluate env expr = evaluate other expr
  | .literal .., _ => rfl
  | .reference loc path, _ => congrArg (follow loc path) hdata
  | .call loc name args, h => by
    have hfunction := h name (by rw [Node.callees_eq]; exact List.mem_cons_self)
    have hargs : evaluateAll env args = evaluateAll other args := by
      apply evaluateAll_congr hdata
      intro arg harg callee hcallee
      exact h callee (Node.mem_callees_of_mem_children harg hcallee)
    rw [evaluate, evaluate, hfunction, hargs]
  | .text .., _ | .interpolation .., _ | .inclusion .., _ | .block .., _ | .list .., _ => rfl

theorem evaluateAll_congr {env other : Env} (hdata : env.data = other.data) : ∀ {exprs : List Node},
    (∀ expr ∈ exprs, ∀ name ∈ expr.callees,
      env.set.functions.find? name = other.set.functions.find? name) →
      evaluateAll env exprs = evaluateAll other exprs
  | [], _ => rfl
  | expr :: exprs, h => by
    obtain ⟨hexpr, hexprs⟩ := List.forall_mem_cons.1 h
    rw [evaluateAll, evaluateAll, evaluate_congr hdata hexpr, evaluateAll_congr hdata hexprs]

end

/-- Escaping leaves expressions alone, and what is none has no value either way. -/
theorem evaluate_escapeThrough (env : Env) (function : String) (node : Node) :
    evaluate env (node.escapeThrough function) = evaluate env node := by
  cases node <;> rfl

/-! ### Revised traces

The run of the escaped set is obtained from the old one by revising its events, of which one may
fail and end the run. Revising commutes with putting traces together, and that is all that the
induction over runs needs. -/

namespace Trace

variable {revise : Event → Except RunError Event}

/-- The events revised one by one, up to the first that cannot be. -/
def reviseFrom (revise : Event → Except RunError Event) (halt? : Option Halt) : List Event → Trace
  | [] => .ending halt?
  | event :: events =>
    match revise event with
    | .ok revised => .cons revised (reviseFrom revise halt? events)
    | .error e => .ending (some (.failed e))

/-- **The trace with every event revised**, in order; it ends with the error of an event that cannot
be revised. -/
def revised (revise : Event → Except RunError Event) (trace : Trace) : Trace :=
  reviseFrom revise trace.halt? trace.events

variable {event : Event} {first second : Trace}

theorem revised_cons :
    (cons event first).revised revise
      = match revise event with
        | .ok event => cons event (first.revised revise)
        | .error e => .ending (some (.failed e)) := rfl

theorem revised_append :
    (first.append second).revised revise
      = (first.revised revise).append (second.revised revise) := by
  induction first using Trace.induction with
  | ending halt? => cases halt? <;> rfl
  | cons event first ih =>
    rw [append_cons, revised_cons, revised_cons]
    cases revise event with
    | error e => rfl
    | ok event => rw [append_cons, ih]

theorem revised_concat (traces : List Trace) :
    (concat traces).revised revise = concat (traces.map (revised revise)) := by
  induction traces with
  | nil => rfl
  | cons first traces ih => rw [concat_cons, revised_append, ih, List.map_cons, concat_cons]

/-- If every event can be revised, the end stays. -/
theorem halt?_revised (h : ∀ event, ∃ revised, revise event = .ok revised) (trace : Trace) :
    (trace.revised revise).halt? = trace.halt? := by
  induction trace using Trace.induction with
  | ending halt? => rfl
  | cons event trace ih =>
    obtain ⟨event', hevent⟩ := h event
    rw [revised_cons, hevent]
    exact ih

end Trace

/-! ### Escapes

An escape acts on trees and on events, in both cases according to the template that they belong to.
A tree is escaped or left as it is, so each equation about it holds for both. -/

/-- **An escape**: of a template through a function. It is applied to trees, statements, steps and
events alike, and in each of these does something at the interpolations of its own template only. -/
structure Escape where
  /-- the template -/
  template : String
  /-- the name of the function -/
  name : String
  /-- the function -/
  function : HostFunction

namespace Escape

/-- A tree of a template, escaped if it is the template's turn. -/
def tree (escape : Escape) (template : String) (node : Node) : Node :=
  if template = escape.template then node.escapeThrough escape.name else node

/-- **An event, escaped**: a value that the template puts goes through the function, and all else
stays. -/
def event (escape : Escape) (event : Event) : Except RunError Event :=
  match event.action with
  | .puts value =>
    if event.template = escape.template then
      (applyFunction event.loc escape.name escape.function [value]).map fun value =>
        { event with action := .puts value }
    else
      .ok event
  | _ => .ok event

variable (escape : Escape)

theorem tree_cases (template : String) :
    escape.tree template = Node.escapeThrough escape.name ∨ escape.tree template = id := by
  by_cases h : template = escape.template
  · exact .inl (funext fun _ => if_pos h)
  · exact .inr (funext fun _ => if_neg h)

section Tree

variable (template : String) (loc : Location)

theorem loc_tree (node : Node) : (escape.tree template node).loc = node.loc := by
  rcases escape.tree_cases template with h | h
  · rw [h, Node.loc_escapeThrough]
  · rw [h, id]

theorem tree_text (content : String) :
    escape.tree template (.text loc content) = .text loc content := ite_self _

theorem tree_inclusion (name : Node) (data : Option Node) :
    escape.tree template (.inclusion loc name data)
      = .inclusion loc (escape.tree template name) (data.map (escape.tree template)) := by
  rcases escape.tree_cases template with h | h
  · rw [h, Node.escapeThrough_inclusion]
  · rw [h, Option.map_id, id, id, id]

theorem tree_block (kind : BlockKind) (expr body : Node) (orElse : Option Node) :
    escape.tree template (.block loc kind expr body orElse)
      = .block loc kind (escape.tree template expr) (escape.tree template body)
          (orElse.map (escape.tree template)) := by
  rcases escape.tree_cases template with h | h
  · rw [h, Node.escapeThrough_block]
  · rw [h, Option.map_id, id, id, id, id]

theorem tree_list (items : List Node) :
    escape.tree template (.list loc items) = .list loc (items.map (escape.tree template)) := by
  rcases escape.tree_cases template with h | h
  · rw [h, Node.escapeThrough_list]
  · rw [h, List.map_id, id]

/-- Expressions stay as they are. -/
theorem tree_of_isExpression {expr : Node} (h : expr.isExpression = true) :
    escape.tree template expr = expr := by
  rcases escape.tree_cases template with heq | heq
  · rw [heq, Node.escapeThrough_of_isExpression _ h]
  · rw [heq, id]

theorem evaluate_tree (env : Env) (node : Node) :
    evaluate env (escape.tree template node) = evaluate env node := by
  rcases escape.tree_cases template with h | h
  · rw [h, evaluate_escapeThrough]
  · rw [h, id]

end Tree

/-- An escaped event differs in its action alone. -/
theorem event_eq_ok {event escaped : Event} (h : escape.event event = .ok escaped) :
    escaped = { event with action := escaped.action } := by
  rw [Escape.event] at h
  split at h
  · split at h
    · obtain ⟨value, -, rfl⟩ := map_eq_ok.1 h
      rfl
    · cases h
      rfl
  · cases h
    rfl

/-! ### One step

A task of the old set and the same task in the escaped one take corresponding steps: the same action
but for the value of an interpolation, and the same tasks behind it, escaped. This is proved once
for each kind of statement. -/

/-- **A statement, escaped**: the same in the escaped set, on the same data. -/
def task (escaped : TemplateSet) (task : Task) : Task where
  env := escaped.env task.env.data
  template := task.template
  node := escape.tree task.template task.node

/-- What becomes of a step: its event and the statements that it leaves are escaped. -/
def step (escaped : TemplateSet) (task : Task) (step : Action × List Task) :
    Except RunError (Action × List Task) :=
  (escape.event (task.event step.1)).map fun event =>
    (event.action, step.2.map (escape.task escaped))

section Step

variable {escape} {set escaped : TemplateSet} {data : Value}
  (h : set.escapeWith escape.template escape.name escape.function = .ok escaped)

include h

/-- Where the function is not called, an escape changes no value. -/
theorem evaluate_escaped {expr : Node} (hcalls : escape.name ∉ expr.callees) :
    evaluate (escaped.env data) expr = evaluate (set.env data) expr := by
  have hdata : (escaped.env data).data = (set.env data).data := rfl
  apply evaluate_congr hdata
  intro name hname
  have hne : name ≠ escape.name := by
    rintro rfl
    exact hcalls hname
  exact (TemplateSet.find?_functions_escapeWith h name).trans (if_neg hne)

/-- The function is given the value that was put. -/
theorem evaluate_call_escaped (loc : Location) {expr : Node} (hcalls : escape.name ∉ expr.callees) :
    evaluate (escaped.env data) (.call loc escape.name [expr])
      = (evaluate (set.env data) expr).bind fun value =>
          applyFunction loc escape.name escape.function [value] := by
  have hfunction : (escaped.env data).set.functions.find? escape.name = some escape.function :=
    (TemplateSet.find?_functions_escapeWith h escape.name).trans (if_pos rfl)
  rw [evaluate, hfunction, evaluateAll, evaluateAll, evaluate_escaped h hcalls]
  cases evaluate (set.env data) expr <;> rfl

theorem forInclusion_escaped (template : String) {expr? : Option Node}
    (hcalls : ∀ expr ∈ expr?, escape.name ∉ expr.callees) :
    (escaped.env data).forInclusion (expr?.map (escape.tree template))
      = ((set.env data).forInclusion expr?).map fun env => escaped.env env.data := by
  cases expr? with
  | none => rfl
  | some expr =>
    rw [Option.map_some, Env.forInclusion, Env.forInclusion, evaluate_tree,
      evaluate_escaped h (hcalls expr rfl)]
    cases evaluate (set.env data) expr <;> rfl

theorem included_escaped (template : String) (loc : Location) {expr? : Option Node}
    (hcalls : ∀ expr ∈ expr?, escape.name ∉ expr.callees) (value : Value) :
    (escaped.env data).included loc (expr?.map (escape.tree template)) value
      = ((set.env data).included loc expr? value).map fun found =>
          (found.1, escaped.env found.2.1.data, escape.tree found.1 found.2.2) := by
  cases value with
  | string name =>
    have htemplate : (escaped.env data).set.template? name
        = ((set.env data).set.template? name).map (escape.tree name) :=
      TemplateSet.template?_escapeWith h name
    rw [Env.included, Env.included, htemplate, forInclusion_escaped h template hcalls]
    cases (set.env data).set.template? name with
    | none => rfl
    | some root => cases (set.env data).forInclusion expr? <;> rfl
  | _ => rfl

/-- A put value goes through the function in the template that is escaped. -/
theorem step_interpolation_escaped (template : String) (loc : Location) {expr : Node}
    (hcalls : escape.name ∉ expr.callees) :
    Task.step ⟨escaped.env data, template, escape.tree template (.interpolation loc expr)⟩
      = (Task.step ⟨set.env data, template, .interpolation loc expr⟩).bind
          (escape.step escaped ⟨set.env data, template, .interpolation loc expr⟩) := by
  -- only in the escaped template is there a call around the expression
  by_cases hturn : template = escape.template
  · have htree : escape.tree template (.interpolation loc expr)
        = .interpolation loc (.call loc escape.name [expr]) := if_pos hturn
    rw [htree, Task.step_interpolation, Task.step_interpolation, evaluate_call_escaped h loc hcalls]
    cases evaluate (set.env data) expr with
    | error e => rfl
    | ok value =>
      show Except.map _ (applyFunction loc escape.name escape.function [value])
        = Except.map _ (ite (template = escape.template)
          (Except.map _ (applyFunction loc escape.name escape.function [value])) _)
      rw [if_pos hturn]
      cases applyFunction loc escape.name escape.function [value] <;> rfl
  · have htree : escape.tree template (.interpolation loc expr) = .interpolation loc expr :=
      if_neg hturn
    rw [htree, Task.step_interpolation, Task.step_interpolation, evaluate_escaped h hcalls]
    cases evaluate (set.env data) expr with
    | error e => rfl
    | ok value =>
      show _ = Except.map _ (ite (template = escape.template) _ _)
      rw [if_neg hturn]
      rfl

theorem step_inclusion_escaped (template : String) (loc : Location) {name : Node}
    {expr? : Option Node} (hname : escape.name ∉ name.callees)
    (hexpr : ∀ expr ∈ expr?, escape.name ∉ expr.callees) :
    Task.step ⟨escaped.env data, template, escape.tree template (.inclusion loc name expr?)⟩
      = (Task.step ⟨set.env data, template, .inclusion loc name expr?⟩).bind
          (escape.step escaped ⟨set.env data, template, .inclusion loc name expr?⟩) := by
  rw [tree_inclusion, Task.step_inclusion, Task.step_inclusion, evaluate_tree,
    evaluate_escaped h hname]
  cases evaluate (set.env data) name with
  | error e => rfl
  | ok value =>
    show Except.map _ ((escaped.env data).included loc (expr?.map (escape.tree template)) value)
      = Except.bind (Except.map _ ((set.env data).included loc expr? value)) _
    rw [included_escaped h template loc hexpr]
    cases (set.env data).included loc expr? value <;> rfl

theorem step_block_escaped (template : String) (loc : Location) (kind : BlockKind)
    {expr : Node} (hcalls : escape.name ∉ expr.callees) (body : Node) (orElse : Option Node) :
    Task.step ⟨escaped.env data, template, escape.tree template (.block loc kind expr body orElse)⟩
      = (Task.step ⟨set.env data, template, .block loc kind expr body orElse⟩).bind
          (escape.step escaped ⟨set.env data, template, .block loc kind expr body orElse⟩) := by
  rw [tree_block, Task.step_block, Task.step_block, evaluate_tree, evaluate_escaped h hcalls]
  cases evaluate (set.env data) expr with
  | error e => rfl
  | ok value =>
    show Except.map _ ((escaped.env data).branches loc kind value (escape.tree template body)
        (orElse.map (escape.tree template)))
      = Except.bind (Except.map _ ((set.env data).branches loc kind value body orElse)) _
    rw [Env.branches_map set]
    cases (set.env data).branches loc kind value body orElse with
    | error e => rfl
    | ok nodes =>
      show Except.ok (_, List.map _ (List.map _ nodes))
        = Except.ok (_, List.map _ (List.map _ nodes))
      rw [List.map_map, List.map_map]
      rfl

omit h in
theorem step_list_escaped (template : String) (loc : Location) (items : List Node) :
    Task.step ⟨escaped.env data, template, escape.tree template (.list loc items)⟩
      = (Task.step ⟨set.env data, template, .list loc items⟩).bind
          (escape.step escaped ⟨set.env data, template, .list loc items⟩) := by
  rw [tree_list]
  show Except.ok (_, List.map _ (List.map _ items)) = Except.ok (_, List.map _ (List.map _ items))
  rw [List.map_map, List.map_map]
  rfl

/-- **One step of an escaped statement** is the step of the statement, its event escaped. The
function may fail on a value, and then the step fails that did not before. -/
theorem step_task {task : Task} (hset : task.env.set = set)
    (hcalls : escape.name ∉ task.node.callees) :
    (escape.task escaped task).step = task.step.bind (escape.step escaped task) := by
  obtain ⟨⟨set', data⟩, template, node⟩ := task
  obtain rfl : set' = set := hset
  have hchild : ∀ child ∈ node.children, escape.name ∉ child.callees := by
    intro child hchild hname
    exact hcalls (Node.mem_callees_of_mem_children hchild hname)
  cases node with
  | text loc content =>
    rw [task, tree_text]
    rfl
  | interpolation loc expr =>
    exact step_interpolation_escaped h template loc (hchild expr List.mem_cons_self)
  | inclusion loc name expr? =>
    refine step_inclusion_escaped h template loc (hchild name List.mem_cons_self) ?_
    intro expr hexpr
    exact hchild expr (List.mem_cons_of_mem _ (Option.mem_toList.2 hexpr))
  | block loc kind expr body orElse =>
    exact step_block_escaped h template loc kind (hchild expr List.mem_cons_self) body orElse
  | list loc items => exact step_list_escaped template loc items
  | reference | call | literal =>
    rw [task, tree_of_isExpression escape _ rfl]
    rfl

/-! ### Runs

By induction on the depth, since a step leads to tasks that run one level deeper. The tasks behind a
step are parts of the tree or trees of the set, in which the name is not called either. -/

/-- **The run of an escaped statement** is the run of the statement, its events escaped, up to the
first that cannot be. -/
theorem trace_task
    (hroot : ∀ name root, set.template? name = some root → escape.name ∉ root.callees)
    (depth : Nat) {task : Task} (hset : task.env.set = set)
    (hcalls : escape.name ∉ task.node.callees) :
    (escape.task escaped task).trace depth = (task.trace depth).revised escape.event := by
  induction depth generalizing task with
  | zero => rfl
  | succ depth ih =>
    rw [Task.trace, Task.trace, step_task h hset hcalls]
    cases hstep : task.step with
    | error e => rfl
    | ok step =>
      obtain ⟨action, next⟩ := step
      -- behind the step each task runs as its escape does, by induction
      have hnext : (next.map (escape.task escaped)).map (Task.trace depth)
          = (next.map (Task.trace depth)).map (Trace.revised escape.event) := by
        rw [List.map_map, List.map_map]
        apply List.map_congr_left
        intro other hother
        obtain ⟨hsame, hnode⟩ := Task.mem_of_step hstep hother
        refine ih (hsame.trans hset) ?_
        rcases hnode with ⟨-, hpart⟩ | hfind
        · intro hname
          have hchild := Node.mem_children_of_mem_parts hpart
          exact hcalls (Node.mem_callees_of_mem_children hchild hname)
        · rw [hset] at hfind
          exact hroot _ _ hfind
      simp only [Except.bind]
      rw [Trace.revised_cons, step]
      cases hevent : escape.event (task.event action) with
      | error e => rfl
      | ok event =>
        -- the event of the escaped task is the escaped event: its place is the same
        have hsame : (escape.task escaped task).event event.action = event := by
          rw [escape.event_eq_ok hevent]
          simp only [Task.event, Escape.task, loc_tree]
          rfl
        simp only [Except.map]
        rw [hsame, hnext, Trace.revised_concat]

end Step

end Escape

/-- **The functions that are called** anywhere in a set. A name that is not among them is free to be
registered anew. -/
def TemplateSet.callees (set : TemplateSet) : List String :=
  set.templates.entries.flatMap fun entry => entry.2.callees

theorem TemplateSet.mem_callees {set : TemplateSet} {template name : String} {root : Node}
    (hroot : set.template? template = some root) (h : name ∈ root.callees) : name ∈ set.callees :=
  List.mem_flatMap.2 ⟨(template, root), mem_entries_iff.2 hroot, h⟩

namespace Escape

variable (escape : Escape) {set escaped : TemplateSet}

/-- **The run of an escaped set** is the run of the set, its events escaped, for every template and
not only the one that was escaped. -/
theorem trace_env (h : set.escapeWith escape.template escape.name escape.function = .ok escaped)
    (hcalls : escape.name ∉ set.callees) (data : Value) (depth : Nat) (name : String) :
    (escaped.env data).trace depth name
      = ((set.env data).trace depth name).revised escape.event := by
  have htemplate : (escaped.env data).set.template? name
      = ((set.env data).set.template? name).map (escape.tree name) :=
    TemplateSet.template?_escapeWith h name
  have hroot : ∀ name root, set.template? name = some root → escape.name ∉ root.callees := by
    intro name root hroot hname
    exact hcalls (TemplateSet.mem_callees hroot hname)
  cases hfind : (set.env data).set.template? name with
  | none =>
    rw [hfind, Option.map_none] at htemplate
    rw [Env.trace_of_none htemplate, Env.trace_of_none hfind]
    rfl
  | some root =>
    rw [hfind, Option.map_some] at htemplate
    rw [Env.trace_of_some htemplate, Env.trace_of_some hfind]
    have hnode : escape.name ∉ (Task.mk (set.env data) name root).node.callees :=
      hroot name root hfind
    exact trace_task h hroot depth rfl hnode

/-- If the function takes whatever value it is given, no run ends otherwise than before. -/
theorem halt?_trace_env
    (h : set.escapeWith escape.template escape.name escape.function = .ok escaped)
    (hcalls : escape.name ∉ set.callees)
    (htotal : ∀ value, ∃ result, escape.function [value] = .ok result) (data : Value) (depth : Nat)
    (name : String) :
    ((escaped.env data).trace depth name).halt? = ((set.env data).trace depth name).halt? := by
  rw [escape.trace_env h hcalls]
  refine Trace.halt?_revised ?_ _
  intro event
  rw [Escape.event]
  split
  · next value _ =>
    split
    · obtain ⟨result, hresult⟩ := htotal value
      refine ⟨{ event with action := .puts result }, ?_⟩
      rw [applyFunction, hresult]
      rfl
    · exact ⟨event, rfl⟩
  · exact ⟨event, rfl⟩

end Escape

/-- HTML can be made of every value. -/
theorem exists_htmlEscaper (value : Value) : ∃ result, htmlEscaper [value] = .ok result := by
  rw [htmlEscaper]
  cases value.output? with
  | none => exact ⟨_, rfl⟩
  | some text => exact ⟨_, rfl⟩

/-- A template renders if its trace has an end. -/
theorem Env.exists_render_iff {depth : Nat} {env : Env} {name : String} :
    (∃ text, env.render depth name = .ok text) ↔ (env.trace depth name).halt? = none := by
  rw [render_eq]
  cases (env.trace depth name).halt? <;> simp

namespace TemplateSet

/-- **What escaping a template means for runs.** If no tree of a set calls a function of the name
through which a template is escaped, the run of every template on all data mirrors its run in the
set as it was: the same events in the same order, but for the values that interpolations of the
escaped template put, which go through the function, and the same end, unless the function fails on
such a value before; then the run ends there and blames the interpolation. What a sink sees of
either run is its trace. Made safe for HTML, a template renders if and only if it did before. -/
theorem escapeWith_mirrors {set : TemplateSet} {template : String} (h : template ∈ set.names) :
    (∀ name function, name ∉ set.callees →
      ∃ escaped, set.escapeWith template name function = .ok escaped ∧
        ∀ data depth other,
          (escaped.env data).trace depth other
              = ((set.env data).trace depth other).revised
                  (Escape.event ⟨template, name, function⟩) ∧
            (escaped.env data).execute depth other
              = ((escaped.env data).trace depth other).replay ∧
            (set.env data).execute depth other = ((set.env data).trace depth other).replay) ∧
      (htmlEscaperName ∉ set.callees →
        ∃ escaped, set.escape template = .ok escaped ∧
          ∀ data depth other,
            (∃ text, (escaped.env data).render depth other = .ok text) ↔
              ∃ text, (set.env data).render depth other = .ok text) := by
  constructor
  · intro name function hcalls
    obtain ⟨escaped, hescaped⟩ := exists_escapeWith h name function
    refine ⟨escaped, hescaped, fun data depth other => ⟨?_, ?_, ?_⟩⟩
    · exact Escape.trace_env ⟨template, name, function⟩ hescaped hcalls data depth other
    · exact Env.execute_eq_replay depth (escaped.env data) other
    · exact Env.execute_eq_replay depth (set.env data) other
  · intro hcalls
    obtain ⟨escaped, hescaped⟩ := exists_escapeWith h htmlEscaperName htmlEscaper
    refine ⟨escaped, hescaped, fun data depth other => ?_⟩
    rw [Env.exists_render_iff, Env.exists_render_iff,
      Escape.halt?_trace_env ⟨template, htmlEscaperName, htmlEscaper⟩ hescaped hcalls
        exists_htmlEscaper]

/-- A row with a cell, escaped through a function that refuses: the run stops at the cell. -/
theorem refused_cell_stops_run :
    ∃ escaped,
      (setTemplate ∅ "row" (.interpolation ⟨"t", 3⟩ (.reference ⟨"t", 3⟩ ["cell"]))).escapeWith
          "row" "strict" (fun _ => .error "refused") = .ok escaped ∧
        ((escaped.env .null).trace 1 "row").halt?
          = some (.failed (.functionFailed ⟨"t", 3⟩ "strict" "refused")) := by
  have hrow : "row" ∈ (setTemplate ∅ "row"
      (.interpolation ⟨"t", 3⟩ (.reference ⟨"t", 3⟩ ["cell"]))).names := by decide
  obtain ⟨escaped, hescaped, hruns⟩ :=
    (escapeWith_mirrors hrow).1 "strict" (fun _ => .error "refused") (by decide)
  refine ⟨escaped, hescaped, ?_⟩
  rw [(hruns .null 1 "row").1]
  rfl

end TemplateSet

end Stencil
