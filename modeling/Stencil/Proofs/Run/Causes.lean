import Stencil.Node.Subtrees
import Stencil.Proofs.Run.Writes

/-!
# What a run fails for

An error that says where is the error of one node, which stands there: a statement that the run has
come to, or what is evaluated for it. Expressions fail in four ways and statements in four others
(`Node.FailsToEvaluate`, `Node.FailsToRun`). What passes an error on, an argument or an operand, a
loop or an inclusion, leaves it as it is, so the location of the error is that of the node
(`TemplateSet.errors_point_at_their_cause`).
-/

namespace Stencil

/-! ### Nodes that fail

An error is made at one place in the program, from one node and what was found there. The two
relations say which node that is and in what case, one constructor for each error with a location.
They speak of a node by itself: a call whose argument fails does not fail to evaluate, its argument
does. -/

/-- **A value with properties**: an object, or null, which has them all and all null. Arrays and
strings have none. -/
def Value.hasProperties : Value → Bool
  | .null | .object _ => true
  | _ => false

namespace Node

/-- **A node fails to evaluate**, by itself and with what error. Nothing is said of why it is
evaluated, nor in which expression it stands. -/
inductive FailsToEvaluate (env : Env) : Node → RunError → Prop
  /-- a call of a function that is not registered -/
  | unknownFunction {loc : Location} {name : String} {args : List Node} :
    env.set.functions.find? name = none →
    FailsToEvaluate env (.call loc name args) (.unknownFunction loc name)
  /-- a call whose function says, of the values of the arguments, that it cannot -/
  | functionFailed {loc : Location} {name reason : String} {args : List Node}
      {function : HostFunction} {values : List Value} :
    env.set.functions.find? name = some function →
    evaluateAll env args = .ok values →
    function values = .error reason →
    FailsToEvaluate env (.call loc name args) (.functionFailed loc name reason)
  /-- a property chain that comes to a value without properties -/
  | notAMapping {loc : Location} {before after : List String} {property : String}
      {found : Value} :
    follow loc before env.data = .ok found →
    found.hasProperties = false →
    FailsToEvaluate env (.reference loc (before ++ property :: after))
      (.notAMapping loc property found)
  /-- a statement -/
  | notAnExpression {node : Node} :
    node.isExpression = false →
    FailsToEvaluate env node (.notAnExpression node.loc)

/-- **A node fails to run**, by itself and with what error. The expressions that it needs have their
values here, where it needs any. -/
inductive FailsToRun (env : Env) : Node → RunError → Prop
  /-- an inclusion of a template that the set does not have -/
  | unknownTemplate {loc : Location} {expr : Node} {name : String} {data : Option Node} :
    evaluate env expr = .ok (.string name) →
    name ∉ env.set.names →
    FailsToRun env (.inclusion loc expr data) (.unknownTemplate loc name)
  /-- an inclusion whose name is not a string -/
  | templateName {loc : Location} {expr : Node} {value : Value} {data : Option Node} :
    evaluate env expr = .ok value →
    (∀ name, value ≠ .string name) →
    FailsToRun env (.inclusion loc expr data) (.templateName loc value)
  /-- a range over a value that holds, but has no items -/
  | notIterable {loc : Location} {expr body : Node} {orElse : Option Node} {value : Value} :
    evaluate env expr = .ok value →
    value.isTruthy = true →
    (∀ items, value ≠ .array items) →
    (∀ fields, value ≠ .object fields) →
    FailsToRun env (.block loc .range expr body orElse) (.notIterable loc value)
  /-- an expression -/
  | notAStatement {node : Node} :
    node.isExpression = true →
    FailsToRun env node (.notAStatement node.loc)

variable {env : Env} {node : Node} {e : RunError}

/-- The error of an expression is located where the expression is. -/
theorem FailsToEvaluate.loc?_eq (h : node.FailsToEvaluate env e) : e.loc? = some node.loc := by
  cases h <;> rfl

/-- So is the error of a statement. -/
theorem FailsToRun.loc?_eq (h : node.FailsToRun env e) : e.loc? = some node.loc := by
  cases h <;> rfl

/-! ### Expressions

An expression fails for itself or because an operand does, and the error of the operand is handed on
as it is. Following the operands down (`Needs`) comes to the node that made it, by induction on the
expression. -/

/-- **The operands of a node**: what is evaluated for it. The bodies of a block and the items of a
list are not: they are run. -/
def operands : Node → List Node
  | .interpolation _ expr => [expr]
  | .call _ _ args => args
  | .inclusion _ name data => name :: data.toList
  | .block _ _ expr _ _ => [expr]
  | .text .. | .reference .. | .literal .. | .list .. => []

/-- Operands are children. -/
theorem mem_children_of_mem_operands {operand : Node} (h : operand ∈ node.operands) :
    operand ∈ node.children := by
  cases node with
  | interpolation | call | inclusion => exact h
  | block =>
    obtain rfl := List.mem_singleton.1 h
    exact List.mem_cons_self
  | text | reference | literal | list => cases h

/-- **A node needs another**: it is an operand, or an operand needs it. It is evaluated then before
the node is. -/
def Needs : Node → Node → Prop :=
  Relation.TransGen fun node operand => operand ∈ node.operands

/-- What a node needs is under it. -/
theorem Needs.mem_subtrees {needed : Node} (h : node.Needs needed) : needed ∈ node.subtrees := by
  induction h with
  | single hoperand =>
    exact mem_subtrees_of_mem_children (mem_children_of_mem_operands hoperand)
      (mem_subtrees_self _)
  | tail _ hoperand ih =>
    have hchild := mem_subtrees_of_mem_children (mem_children_of_mem_operands hoperand)
      (mem_subtrees_self _)
    exact mem_subtrees_trans hchild ih

end Node

/-- **Where following a path fails**: behind some properties, at the next of which is asked of a
value that has none. Null has all properties, so it never fails there. -/
theorem exists_of_follow_eq_error {loc : Location} {path : List String} {value : Value}
    {e : RunError} (h : follow loc path value = .error e) :
    ∃ before property after found, path = before ++ property :: after ∧
      follow loc before value = .ok found ∧ found.hasProperties = false ∧
      e = .notAMapping loc property found := by
  induction path generalizing value with
  | nil => cases h
  | cons property path ih =>
    cases value with
    | null => cases h
    | object fields =>
      obtain ⟨before, other, after, found, rfl, hfound, hproperties, rfl⟩ := ih h
      exact ⟨property :: before, other, after, found, rfl, hfound, hproperties, rfl⟩
    | bool | number | string | array =>
      cases h
      exact ⟨[], property, path, _, rfl, rfl, rfl, rfl⟩

/-- Expressions in a row fail because one of them does. -/
theorem exists_of_evaluateAll_eq_error {env : Env} {exprs : List Node} {e : RunError}
    (h : evaluateAll env exprs = .error e) : ∃ expr ∈ exprs, evaluate env expr = .error e := by
  induction exprs with
  | nil => cases h
  | cons expr exprs ih =>
    rw [evaluateAll_cons, bind_eq_error] at h
    rcases h with hexpr | ⟨value, -, hexprs⟩
    · exact ⟨expr, List.mem_cons_self, hexpr⟩
    · obtain ⟨other, hother, herror⟩ := ih (map_eq_error.1 hexprs)
      exact ⟨other, List.mem_cons_of_mem _ hother, herror⟩

/-- **What an expression fails for**: itself, or an expression that it needs, with the very error
that is handed on. -/
theorem exists_failsToEvaluate {env : Env} {expr : Node} {e : RunError}
    (h : evaluate env expr = .error e) :
    ∃ node, (node = expr ∨ expr.Needs node) ∧ node.FailsToEvaluate env e := by
  induction expr using Node.children_induction with
  | h expr ih =>
    cases expr with
    | literal => cases h
    | reference loc path =>
      obtain ⟨before, property, after, found, rfl, hfound, hproperties, rfl⟩ :=
        exists_of_follow_eq_error h
      exact ⟨_, .inl rfl, .notAMapping hfound hproperties⟩
    | call loc name args =>
      cases hfunction : env.set.functions.find? name with
      | none =>
        rw [evaluate_call_of_none hfunction] at h
        cases h
        exact ⟨_, .inl rfl, .unknownFunction hfunction⟩
      | some function =>
        rw [evaluate_call_of_some hfunction, bind_eq_error] at h
        rcases h with hargs | ⟨values, hvalues, hcall⟩
        -- an argument fails, or all have values and the function says no
        · obtain ⟨arg, harg, herror⟩ := exists_of_evaluateAll_eq_error hargs
          obtain ⟨node, hnode, hfails⟩ := ih arg harg herror
          refine ⟨node, .inr ?_, hfails⟩
          rcases hnode with rfl | hneeds
          · exact .single harg
          · exact .head harg hneeds
        · obtain ⟨reason, hreason, rfl⟩ := applyFunction_eq_error.1 hcall
          exact ⟨_, .inl rfl, .functionFailed hfunction hvalues hreason⟩
    | text | interpolation | inclusion | block | list =>
      cases h
      exact ⟨_, .inl rfl, .notAnExpression rfl⟩

/-! ### Statements

A statement is one step, so its errors are those of the step: its own, or of an expression that it
evaluates. What it leaves to run is no matter of this section. The errors of that belong to other
statements, which the run comes to later. -/

/-- **A statement fails for a node**: for itself, or for one that it needs. This is where an error
comes from, in the environment of the statement. -/
inductive Task.FailsFor (task : Task) : Node → RunError → Prop
  /-- the statement fails by itself -/
  | itself {e : RunError} : task.node.FailsToRun task.env e → FailsFor task task.node e
  /-- something that is evaluated for it fails -/
  | needed {node : Node} {e : RunError} :
    task.node.Needs node → node.FailsToEvaluate task.env e → FailsFor task node e

/-- The error is located where the node is. -/
theorem Task.FailsFor.loc?_eq {task : Task} {node : Node} {e : RunError}
    (h : task.FailsFor node e) : e.loc? = some node.loc := by
  cases h with
  | itself hfails => exact hfails.loc?_eq
  | needed _ hfails => exact hfails.loc?_eq

/-- The node is the statement or under it. -/
theorem Task.FailsFor.mem_subtrees {task : Task} {node : Node} {e : RunError}
    (h : task.FailsFor node e) : node ∈ task.node.subtrees := by
  cases h with
  | itself => exact Node.mem_subtrees_self _
  | needed hneeds => exact hneeds.mem_subtrees

/-- What an operand fails for, the statement fails for. -/
theorem Task.exists_failsFor_of_operand {task : Task} {operand : Node} {e : RunError}
    (hoperand : operand ∈ task.node.operands) (h : evaluate task.env operand = .error e) :
    ∃ node, task.FailsFor node e := by
  obtain ⟨node, rfl | hneeds, hfails⟩ := exists_failsToEvaluate h
  · exact ⟨node, .needed (.single hoperand) hfails⟩
  · exact ⟨node, .needed (.head hoperand hneeds) hfails⟩

namespace Env

variable {env : Env} {loc : Location} {value : Value} {e : RunError}

/-- A block has nothing to go on with if it is a range over what has no items. -/
theorem branches_eq_error {kind : BlockKind} {body : Node} {orElse : Option Node}
    (h : env.branches loc kind value body orElse = .error e) :
    kind = .range ∧ value.isTruthy = true ∧ value.items? = none ∧ e = .notIterable loc value := by
  unfold branches at h
  split at h
  · next htruthy =>
    split at h
    · cases h
    · cases h
    · split at h
      · cases h
      · next hitems =>
        cases h
        exact ⟨rfl, htruthy, hitems, rfl⟩
  · cases h

/-- An inclusion has nothing to go on with if its name is not a string, if there is no template of
that name, or if its data cannot be evaluated. -/
theorem included_eq_error {data : Option Node} (h : env.included loc data value = .error e) :
    ((∀ name, value ≠ .string name) ∧ e = .templateName loc value) ∨
      (∃ name, value = .string name ∧ env.set.template? name = none ∧
        e = .unknownTemplate loc name) ∨
      ∃ expr ∈ data, evaluate env expr = .error e := by
  unfold included at h
  split at h
  · next name =>
    split at h
    · next hnone =>
      cases h
      exact .inr (.inl ⟨name, rfl, hnone, rfl⟩)
    · rw [map_eq_error] at h
      cases data with
      | none => cases h
      | some expr => exact .inr (.inr ⟨expr, rfl, map_eq_error.1 h⟩)
  · next hstring =>
    cases h
    exact .inl ⟨hstring, rfl⟩

end Env

/-- **What a statement fails for**, if it does: every error of a step has such a node. -/
theorem Task.exists_failsFor {task : Task} {e : RunError} (h : task.step = .error e) :
    ∃ node, task.FailsFor node e := by
  obtain ⟨env, template, node⟩ := task
  cases node with
  | text | list => cases h
  | interpolation loc expr =>
    rw [step_interpolation, map_eq_error] at h
    exact exists_failsFor_of_operand List.mem_cons_self h
  | inclusion loc name data =>
    rw [step_inclusion, bind_eq_error] at h
    rcases h with hname | ⟨value, hvalue, hincluded⟩
    · exact exists_failsFor_of_operand List.mem_cons_self hname
    rw [map_eq_error] at hincluded
    -- the name is no string, or there is no such template, or the data fail
    obtain ⟨hstring, rfl⟩ | ⟨found, rfl, hnone, rfl⟩ | ⟨expr, hexpr, herror⟩ :=
      Env.included_eq_error hincluded
    · exact ⟨_, .itself (.templateName hvalue hstring)⟩
    · exact ⟨_, .itself (.unknownTemplate hvalue (TemplateSet.template?_eq_none_iff.1 hnone))⟩
    · have hoperand : expr ∈ (Node.inclusion loc name data).operands :=
        List.mem_cons_of_mem _ (Option.mem_toList.2 hexpr)
      exact exists_failsFor_of_operand hoperand herror
  | block loc kind expr body orElse =>
    rw [step_block, bind_eq_error] at h
    rcases h with hexpr | ⟨value, hvalue, hbranches⟩
    · exact exists_failsFor_of_operand List.mem_cons_self hexpr
    rw [map_eq_error] at hbranches
    obtain ⟨rfl, htruthy, hitems, rfl⟩ := Env.branches_eq_error hbranches
    refine ⟨_, .itself (.notIterable hvalue htruthy ?_ ?_)⟩
    · rintro items rfl
      cases hitems
    · rintro fields rfl
      cases hitems
  | reference | call | literal =>
    cases h
    exact ⟨_, .itself (.notAStatement rfl)⟩

/-! ### Runs

A run fails at a statement that it has come to, and every such statement is a node of one of the
trees of the set (`Task.StandsIn`). The invariant passes from a statement to what it leaves, so it
holds along the whole run, through inclusions and loops. -/

/-- **A statement stands in a set**: it is a node of the tree of its template, and the set is the
one it runs in. -/
def Task.StandsIn (set : TemplateSet) (task : Task) : Prop :=
  task.env.set = set ∧
    ∃ root, set.template? task.template = some root ∧ task.node ∈ root.subtrees

/-- **What is left stands in the set** too: it is a part of a node that stands there, or the root of
a tree. -/
theorem Task.StandsIn.of_leaves {set : TemplateSet} {task other : Task} (h : task.StandsIn set)
    (hleaves : task.Leaves other) : other.StandsIn set := by
  obtain ⟨rfl, root, hroot, hnode⟩ := h
  obtain ⟨action, next, hstep, hother⟩ := hleaves
  obtain ⟨hset, ⟨htemplate, hpart⟩ | hfind⟩ := mem_of_step hstep hother
  -- a part of the statement is under it, in the same tree
  · have hunder := Node.mem_subtrees_of_mem_children (Node.mem_children_of_mem_parts hpart)
      other.node.mem_subtrees_self
    exact ⟨hset, root, htemplate ▸ hroot, Node.mem_subtrees_trans hunder hnode⟩
  · exact ⟨hset, other.node, hfind, other.node.mem_subtrees_self⟩

/-- So does all that a run comes to. -/
theorem Task.StandsIn.of_comesTo {set : TemplateSet} {start task : Task} (h : start.StandsIn set)
    (hcomes : start.ComesTo task) : task.StandsIn set := by
  induction hcomes with
  | refl => exact h
  | tail _ hleaves ih => exact ih.of_leaves hleaves

/-- A run begins with a statement that stands in the set. -/
theorem Task.standsIn_root {set : TemplateSet} {name : String} {root : Node}
    (h : set.template? name = some root) (data : Value) :
    Task.StandsIn set ⟨set.env data, name, root⟩ :=
  ⟨rfl, root, h, root.mem_subtrees_self⟩

/-- **Errors point at their cause.** If the run of a template ends with an error that says where,
then the run has come to a statement of one of the trees of the set, and in the environment it has
come to it in, the statement fails with that error: by itself, or for something that is evaluated
for it. The node that fails stands where the error says. -/
theorem TemplateSet.errors_point_at_their_cause {set : TemplateSet} {data : Value} {name : String}
    {depth : Nat} {sink after : Sink} {e : RunError} {loc : Location}
    (h : (set.env data).execute depth name sink = .error (.failed e) after)
    (hloc : e.loc? = some loc) :
    ∃ start task root node, set.template? name = some start ∧
      Task.ComesTo ⟨set.env data, name, start⟩ task ∧ task.env.set = set ∧
      set.template? task.template = some root ∧ task.node ∈ root.subtrees ∧
      node ∈ root.subtrees ∧ node.loc = loc ∧ task.FailsFor node e := by
  have hwrite : Halt.failed e ≠ .failed .write := by
    rintro ⟨⟩
    cases hloc
  have hhalt := Env.halt?_of_execute h hwrite
  cases hfind : (set.env data).set.template? name with
  | none =>
    rw [Env.trace_of_none hfind] at hhalt
    cases hhalt
    cases hloc
  | some start =>
    rw [Env.trace_of_some hfind] at hhalt
    obtain ⟨task, hcomes, hstep⟩ := Task.exists_of_halt_trace hhalt
    have hstart : set.template? name = some start := hfind
    obtain ⟨hset, root, hroot, hnode⟩ := (Task.standsIn_root hstart data).of_comesTo hcomes
    obtain ⟨node, hfails⟩ := Task.exists_failsFor hstep
    refine ⟨start, task, root, node, hstart, hcomes, hset, hroot, hnode, ?_, ?_, hfails⟩
    · exact Node.mem_subtrees_trans hfails.mem_subtrees hnode
    · exact Option.some.inj (hfails.loc?_eq.symm.trans hloc)

/-- A page whose cell calls a function that fails, on the name that the page hands it: the error is
that of the call, in the tree of the cell. -/
theorem TemplateSet.failed_call_is_in_cell :
    let call := Node.call ⟨"cell", 2⟩ "upper" [.reference ⟨"cell", 2⟩ []]
    let cell := Node.list ⟨"cell", 1⟩ [.text ⟨"cell", 1⟩ "| ", .interpolation ⟨"cell", 2⟩ call]
    let page := Node.inclusion ⟨"page", 1⟩ (.literal ⟨"page", 1⟩ "cell")
      (some (.reference ⟨"page", 1⟩ ["name"]))
    let set := ((setTemplate ∅ "cell" cell).setTemplate "page" page).register "upper"
      fun _ => .error "not text"
    ∃ start task root node, set.template? "page" = some start ∧
      Task.ComesTo ⟨set.env (.object [("name", .bool true)]), "page", start⟩ task ∧
      task.env.set = set ∧ set.template? task.template = some root ∧
      task.node ∈ root.subtrees ∧ node ∈ root.subtrees ∧ node.loc = ⟨"cell", 2⟩ ∧
      task.FailsFor node (.functionFailed ⟨"cell", 2⟩ "upper" "not text") := by
  intro call cell page set
  have hrun : (set.env (.object [("name", .bool true)])).execute 3 "page" Sink.empty
      = .error (.failed (.functionFailed ⟨"cell", 2⟩ "upper" "not text")) ⟨"| ", none⟩ := rfl
  exact errors_point_at_their_cause hrun rfl

end Stencil
