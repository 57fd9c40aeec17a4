import Stencil.Node.Children
import Stencil.Run.Execute

/-!
# Runs, statement by statement

A statement fails, or does something by itself and leaves further statements to run, one after the
other (`Task.step`). That is all there is to a run: it does what its statement does and runs what
the statement leaves (`Env.run_succ`). The statements that are left are parts of the same tree, or
the root of another template of the set (`Task.mem_of_step`).
-/

namespace Stencil

/-- **A statement to run**, with all that it depends on. The template plays no part in the run: it
says in whose tree the statement stands. -/
structure Task where
  /-- what it runs in -/
  env : Env
  /-- the template it belongs to -/
  template : String
  /-- the statement -/
  node : Node

/-- **What a statement does by itself.** Writing is all that a sink sees of it; the rest says where
a run goes and for what value, which is what it takes to tell two runs apart. -/
inductive Action
  /-- it writes text -/
  | writes (content : String)
  /-- it puts a value into the output -/
  | puts (value : Value)
  /-- it goes on in another template -/
  | includes (name : String)
  /-- it goes on as a value decides -/
  | decides (value : Value)
  /-- it goes on with statements in a row -/
  | lines
  deriving DecidableEq, Repr

/-- The text that an action writes. -/
def Action.output? : Action → Option String
  | .writes content => some content
  | .puts value => value.output?
  | .includes _ | .decides _ | .lines => none

/-- **What a block goes on with** once the value of its expression is known: statements, each with
the environment it runs in. A range goes on with one body many times, and a block that is passed
over without an alternative with nothing. -/
def Env.branches (env : Env) (loc : Location) (kind : BlockKind) (value : Value) (body : Node)
    (orElse : Option Node) : Except RunError (List (Env × Node)) :=
  if value.isTruthy then
    match kind with
    | .ifBlock => .ok [(env, body)]
    | .withBlock => .ok [(env.withData value, body)]
    | .range =>
      match value.items? with
      | some items => .ok (items.map fun item => (env.withData item, body))
      | none => .error (.notIterable loc value)
  else
    .ok (orElse.toList.map fun other => (env, other))

/-- **What an inclusion goes on with** once the value of its name is known: a template, its root and
the environment it runs in. The template is looked up before the data are evaluated, so of two
things that are wrong it is the missing template that is found. -/
def Env.included (env : Env) (loc : Location) (data : Option Node) :
    Value → Except RunError (String × Env × Node)
  | .string name =>
    match env.set.template? name with
    | none => .error (.unknownTemplate loc name)
    | some root => (env.forInclusion data).map fun env => (name, env, root)
  | value => .error (.templateName loc value)

namespace Task

/-- **One statement**: what it does by itself and what it leaves to run, or why it fails. Nothing is
written here, and no other statement is run. -/
def step (task : Task) : Except RunError (Action × List Task) :=
  match task.node with
  | .text _ content => .ok (.writes content, [])
  | .interpolation _ expr => (evaluate task.env expr).map fun value => (.puts value, [])
  | .inclusion loc name data =>
    (evaluate task.env name).bind fun value =>
      (task.env.included loc data value).map fun (name, env, root) =>
        (.includes name, [⟨env, name, root⟩])
  | .block loc kind expr body orElse =>
    (evaluate task.env expr).bind fun value =>
      (task.env.branches loc kind value body orElse).map fun nodes =>
        (.decides value, nodes.map fun (env, node) => ⟨env, task.template, node⟩)
  | .list _ items => .ok (.lines, items.map fun item => ⟨task.env, task.template, item⟩)
  | .reference loc _ | .call loc _ _ | .literal loc _ => .error (.notAStatement loc)

variable {env : Env} {template : String} {loc : Location}

theorem step_interpolation {expr : Node} :
    step ⟨env, template, .interpolation loc expr⟩
      = (evaluate env expr).map fun value => (.puts value, []) := rfl

theorem step_inclusion {name : Node} {data : Option Node} :
    step ⟨env, template, .inclusion loc name data⟩
      = (evaluate env name).bind fun value =>
          (env.included loc data value).map fun (name, env, root) =>
            (.includes name, [⟨env, name, root⟩]) := rfl

theorem step_block {kind : BlockKind} {expr body : Node} {orElse : Option Node} :
    step ⟨env, template, .block loc kind expr body orElse⟩
      = (evaluate env expr).bind fun value =>
          (env.branches loc kind value body orElse).map fun nodes =>
            (.decides value, nodes.map fun (env, node) => ⟨env, template, node⟩) := rfl

end Task

/-! ### Runs

A run does what its statement does and then runs what that leaves, so one equation is enough for all
that is said about runs later (`Env.run_succ`). The definition of a run mixes the two: it decides
and runs in one go. What a block and what an inclusion run is therefore split off first, and shown
to be a decision with a row of runs behind it. -/

/-- Writes a text, if there is one. -/
def Run.putSome : Option String → Run Unit
  | none => pure ()
  | some text => Run.put text

section Except

variable {α β γ : Type} {result : Except RunError α} {error : RunError}

theorem bind_eq_ok {f : α → Except RunError β} {value : β} :
    result.bind f = .ok value ↔ ∃ found, result = .ok found ∧ f found = .ok value := by
  cases result <;> simp [Except.bind]

theorem bind_eq_error {f : α → Except RunError β} :
    result.bind f = .error error ↔
      result = .error error ∨ ∃ found, result = .ok found ∧ f found = .error error := by
  cases result <;> simp [Except.bind]

theorem map_eq_ok {f : α → β} {value : β} :
    result.map f = .ok value ↔ ∃ found, result = .ok found ∧ value = f found := by
  cases result <;> simp [Except.map, eq_comm]

theorem map_eq_error {f : α → β} : result.map f = .error error ↔ result = .error error := by
  cases result <;> simp [Except.map]

theorem map_map (f : α → β) (g : β → γ) :
    (result.map f).map g = result.map fun value => g (f value) := by
  cases result <;> rfl

theorem map_bind (f : α → Except RunError β) (g : β → γ) :
    (result.bind f).map g = result.bind fun value => (f value).map g := by
  cases result <;> rfl

theorem Run.ofExcept_map_bind (f : α → β) (next : β → Run γ) :
    (Run.ofExcept (result.map f) >>= next)
      = Run.ofExcept result >>= fun value => next (f value) := by
  cases result <;> rfl

theorem Run.ofExcept_bind_bind (f : α → Except RunError β) (next : β → Run γ) :
    (Run.ofExcept (result.bind f) >>= next)
      = Run.ofExcept result >>= fun value => Run.ofExcept (f value) >>= next := by
  cases result <;> rfl

end Except

namespace Env

/-- **What a block runs** once the value of its expression is known, as the run itself says it. -/
def runBranch (depth : Nat) (env : Env) (loc : Location) (kind : BlockKind) (value : Value)
    (body : Node) (orElse : Option Node) : Run Unit :=
  if value.isTruthy then
    match kind with
    | .ifBlock => run depth env body
    | .withBlock => run depth (env.withData value) body
    | .range =>
      match value.items? with
      | some items => items.forM fun item => run depth (env.withData item) body
      | none => Run.fail (.notIterable loc value)
  else
    match orElse with
    | some other => run depth env other
    | none => pure ()

/-- **What an inclusion runs** once its name is known, as the run itself says it. -/
def runIncluded (depth : Nat) (env : Env) (loc : Location) (data : Option Node) : Value → Run Unit
  | .string name =>
    match env.set.template? name with
    | none => Run.fail (.unknownTemplate loc name)
    | some root => Run.ofExcept (env.forInclusion data) >>= fun env => run depth env root
  | value => Run.fail (.templateName loc value)

variable {depth : Nat} {env : Env} {loc : Location}

theorem run_block {kind : BlockKind} {expr body : Node} {orElse : Option Node} :
    run (depth + 1) env (.block loc kind expr body orElse)
      = Run.ofExcept (evaluate env expr) >>= fun value =>
          runBranch depth env loc kind value body orElse := rfl

theorem run_inclusion {name : Node} {data : Option Node} :
    run (depth + 1) env (.inclusion loc name data)
      = Run.ofExcept (evaluate env name) >>= runIncluded depth env loc data := rfl

/-- What a block runs is what it goes on with. -/
theorem runBranch_eq (depth : Nat) (env : Env) (loc : Location) (kind : BlockKind) (value : Value)
    (body : Node) (orElse : Option Node) :
    runBranch depth env loc kind value body orElse
      = Run.ofExcept (env.branches loc kind value body orElse) >>= fun nodes =>
          nodes.forM fun node => run depth node.1 node.2 := by
  unfold runBranch branches
  split
  · cases kind with
    | ifBlock => exact (bind_pure (m := Run) (run depth env body)).symm
    | withBlock => exact (bind_pure (m := Run) (run depth (env.withData value) body)).symm
    -- as many runs of the body as there are items, each on its own
    | range =>
      cases value.items? with
      | none => rfl
      | some items =>
        exact (List.forM_map (l := items) (m := Run) (g := fun item => (env.withData item, body))
          (f := fun node => run depth node.1 node.2)).symm
  · cases orElse with
    | none => rfl
    | some other => exact (bind_pure (m := Run) (run depth env other)).symm

/-- What an inclusion runs is what it goes on with. -/
theorem runIncluded_eq (depth : Nat) (env : Env) (loc : Location) (data : Option Node)
    (value : Value) :
    runIncluded depth env loc data value
      = Run.ofExcept (env.included loc data value) >>= fun found =>
          run depth found.2.1 found.2.2 := by
  cases value with
  | string name =>
    rw [runIncluded, included]
    cases env.set.template? name with
    | none => rfl
    | some root =>
      exact (Run.ofExcept_map_bind (fun env => (name, env, root))
        fun found => run depth found.2.1 found.2.2).symm
  | _ => rfl

/-- **A run does what its statement does, and runs what that leaves**, one statement after the
other. Everything is one level less deep for what is left. -/
theorem run_succ (depth : Nat) (task : Task) :
    task.env.run (depth + 1) task.node
      = Run.ofExcept task.step >>= fun step =>
          Run.putSome step.1.output? >>= fun _ =>
            step.2.forM fun other => other.env.run depth other.node := by
  obtain ⟨env, template, node⟩ := task
  cases node with
  | text loc content => exact (bind_pure (m := Run) (Run.put content)).symm
  | interpolation loc expr =>
    rw [run, Task.step_interpolation, Run.ofExcept_map_bind]
    apply congrArg
    funext value
    refine Eq.trans ?_ (bind_pure (m := Run) (Run.putSome value.output?)).symm
    cases value.output? <;> rfl
  -- the name first, then the template with its data, and then its root
  | inclusion loc name data =>
    rw [run_inclusion, Task.step_inclusion, Run.ofExcept_bind_bind]
    apply congrArg
    funext value
    rw [runIncluded_eq, Run.ofExcept_map_bind]
    apply congrArg
    funext found
    exact (bind_pure (m := Run) (run depth found.2.1 found.2.2)).symm
  | block loc kind expr body orElse =>
    rw [run_block, Task.step_block, Run.ofExcept_bind_bind]
    apply congrArg
    funext value
    rw [runBranch_eq, Run.ofExcept_map_bind]
    apply congrArg
    funext nodes
    exact (List.forM_map (l := nodes) (m := Run) (g := fun node => Task.mk node.1 template node.2)
      (f := fun other => other.env.run depth other.node)).symm
  -- a list does nothing by itself and leaves its items
  | list loc items =>
    exact (List.forM_map (l := items) (m := Run) (g := fun item => Task.mk env template item)
      (f := fun other => other.env.run depth other.node)).symm
  | reference | call | literal => rfl

end Env

/-! ### What a statement leaves

The other half of what is known of a step: which statements it can leave. From one statement to the
next the set never changes; the data may, and the template does where there is an inclusion. Every
invariant of runs goes through `Task.mem_of_step`. -/

namespace Node

/-- **The statements in a statement**: the bodies of a block, the items of a list. -/
def parts : Node → List Node
  | .block _ _ _ body orElse => body :: orElse.toList
  | .list _ items => items
  | _ => []

/-- Statements in a statement are children. -/
theorem mem_children_of_mem_parts {node part : Node} (h : part ∈ node.parts) :
    part ∈ node.children := by
  cases node with
  | block => exact List.mem_cons_of_mem _ h
  | list => exact h
  | _ => cases h

end Node

/-- What a block goes on with are its bodies, on the same set. -/
theorem Env.mem_of_branches {env : Env} {loc : Location} {kind : BlockKind} {value : Value}
    {body : Node} {orElse : Option Node} {nodes : List (Env × Node)}
    (h : env.branches loc kind value body orElse = .ok nodes) {other : Env × Node}
    (hother : other ∈ nodes) : other.1.set = env.set ∧ other.2 ∈ body :: orElse.toList := by
  unfold branches at h
  split at h
  · cases kind with
    | ifBlock =>
      cases h
      obtain rfl := List.mem_singleton.1 hother
      exact ⟨rfl, List.mem_cons_self⟩
    | withBlock =>
      cases h
      obtain rfl := List.mem_singleton.1 hother
      exact ⟨rfl, List.mem_cons_self⟩
    | range =>
      cases hitems : value.items? with
      | none => simp [hitems] at h
      | some items =>
        simp only [hitems, Except.ok.injEq] at h
        subst h
        obtain ⟨item, -, rfl⟩ := List.mem_map.1 hother
        exact ⟨rfl, List.mem_cons_self⟩
  · cases h
    obtain ⟨node, hnode, rfl⟩ := List.mem_map.1 hother
    exact ⟨rfl, List.mem_cons_of_mem _ hnode⟩

/-- **What a block goes on with does not depend on the set**, and goes along with any change of its
bodies: a block decides by a value alone, and never looks into what it runs. -/
theorem Env.branches_map (set other : TemplateSet) (change : Node → Node) (data : Value)
    (loc : Location) (kind : BlockKind) (value : Value) (body : Node) (orElse : Option Node) :
    (other.env data).branches loc kind value (change body) (orElse.map change)
      = ((set.env data).branches loc kind value body orElse).map fun nodes =>
          nodes.map fun node => (other.env node.1.data, change node.2) := by
  unfold branches
  split
  · cases kind with
    | ifBlock => rfl
    | withBlock => rfl
    | range =>
      cases value.items? with
      | none => rfl
      | some items =>
        show Except.ok _ = Except.ok (List.map _ (List.map _ items))
        rw [List.map_map]
        rfl
  · cases orElse <;> rfl

/-- What an inclusion goes on with is a template of the set. -/
theorem Env.template?_of_included {env : Env} {loc : Location} {data : Option Node} {value : Value}
    {name : String} {inner : Env} {root : Node}
    (h : env.included loc data value = .ok (name, inner, root)) :
    inner.set = env.set ∧ env.set.template? name = some root := by
  unfold included at h
  split at h
  · next found =>
    split at h
    · cases h
    · next root' hroot =>
      cases data with
      | none =>
        cases h
        exact ⟨rfl, hroot⟩
      | some data =>
        rw [forInclusion] at h
        cases hdata : evaluate env data with
        | error e =>
          rw [hdata] at h
          cases h
        | ok value =>
          rw [hdata] at h
          cases h
          exact ⟨rfl, hroot⟩
  · cases h

namespace Task

section Inversion

variable {env : Env} {template : String} {loc : Location} {action : Action} {next : List Task}

theorem step_interpolation_eq_ok {expr : Node} :
    step ⟨env, template, .interpolation loc expr⟩ = .ok (action, next) ↔
      ∃ value, evaluate env expr = .ok value ∧ action = .puts value ∧ next = [] := by
  rw [step_interpolation, map_eq_ok]
  simp only [Prod.mk.injEq]

theorem step_inclusion_eq_ok {name : Node} {data : Option Node} :
    step ⟨env, template, .inclusion loc name data⟩ = .ok (action, next) ↔
      ∃ value found, evaluate env name = .ok value ∧ env.included loc data value = .ok found ∧
        action = .includes found.1 ∧ next = [⟨found.2.1, found.1, found.2.2⟩] := by
  rw [step_inclusion, bind_eq_ok]
  simp only [map_eq_ok, Prod.mk.injEq, exists_and_left]

theorem step_block_eq_ok {kind : BlockKind} {expr body : Node} {orElse : Option Node} :
    step ⟨env, template, .block loc kind expr body orElse⟩ = .ok (action, next) ↔
      ∃ value nodes, evaluate env expr = .ok value ∧
        env.branches loc kind value body orElse = .ok nodes ∧
        action = .decides value ∧ next = nodes.map fun node => ⟨node.1, template, node.2⟩ := by
  rw [step_block, bind_eq_ok]
  simp only [map_eq_ok, Prod.mk.injEq, exists_and_left]

end Inversion

variable {task other : Task} {action : Action} {next : List Task}

/-- **What a statement leaves**: statements that are part of it, of the same template, or the root
of another template; the set stays. So a run never leaves the trees of its set. -/
theorem mem_of_step (h : task.step = .ok (action, next)) (hother : other ∈ next) :
    other.env.set = task.env.set ∧
      ((other.template = task.template ∧ other.node ∈ task.node.parts) ∨
        task.env.set.template? other.template = some other.node) := by
  obtain ⟨env, template, node⟩ := task
  cases node with
  | text =>
    cases h
    cases hother
  | interpolation loc expr =>
    obtain ⟨value, -, -, rfl⟩ := step_interpolation_eq_ok.1 h
    cases hother
  | inclusion loc name data =>
    obtain ⟨value, found, -, hincluded, -, rfl⟩ := step_inclusion_eq_ok.1 h
    obtain rfl := List.mem_singleton.1 hother
    obtain ⟨hset, hroot⟩ := Env.template?_of_included hincluded
    exact ⟨hset, .inr hroot⟩
  | block loc kind expr body orElse =>
    obtain ⟨value, nodes, -, hnodes, -, rfl⟩ := step_block_eq_ok.1 h
    obtain ⟨node, hmem, rfl⟩ := List.mem_map.1 hother
    obtain ⟨hset, hpart⟩ := Env.mem_of_branches hnodes hmem
    exact ⟨hset, .inl ⟨rfl, hpart⟩⟩
  | list loc items =>
    cases h
    obtain ⟨item, hitem, rfl⟩ := List.mem_map.1 hother
    exact ⟨rfl, .inl ⟨rfl, hitem⟩⟩
  | reference | call | literal => cases h

/-- Only text is written as it stands. -/
theorem text_of_step {content : String} (h : task.step = .ok (.writes content, next)) :
    ∃ loc, task.node = .text loc content := by
  obtain ⟨env, template, node⟩ := task
  cases node with
  | text loc =>
    cases h
    exact ⟨loc, rfl⟩
  | interpolation =>
    obtain ⟨_, -, haction, -⟩ := step_interpolation_eq_ok.1 h
    cases haction
  | inclusion =>
    obtain ⟨_, _, -, -, haction, -⟩ := step_inclusion_eq_ok.1 h
    cases haction
  | block =>
    obtain ⟨_, _, -, -, haction, -⟩ := step_block_eq_ok.1 h
    cases haction
  | list | reference | call | literal => cases h

/-- Only interpolations put values: those of their expressions. -/
theorem interpolation_of_step {value : Value} (h : task.step = .ok (.puts value, next)) :
    ∃ loc expr, task.node = .interpolation loc expr ∧ evaluate task.env expr = .ok value := by
  obtain ⟨env, template, node⟩ := task
  cases node with
  | interpolation loc expr =>
    obtain ⟨found, hfound, haction, -⟩ := step_interpolation_eq_ok.1 h
    cases haction
    exact ⟨loc, expr, rfl, hfound⟩
  | inclusion =>
    obtain ⟨_, _, -, -, haction, -⟩ := step_inclusion_eq_ok.1 h
    cases haction
  | block =>
    obtain ⟨_, _, -, -, haction, -⟩ := step_block_eq_ok.1 h
    cases haction
  | text | list | reference | call | literal => cases h

end Task

end Stencil
