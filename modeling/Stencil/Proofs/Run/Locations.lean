import Stencil.Proofs.Run.Steps
import Stencil.TemplateSet.Unlocated

/-!
# Runs do not look at locations

Locations get into errors and nowhere else. The run of a tree and that of the tree without its
locations write the same and end alike, but for the locations in the error (`Env.run_unlocated`). So
two sets whose trees differ in locations alone run alike
(`TemplateSet.runs_are_blind_to_locations`).
-/

namespace Stencil

/-- **The error without its location.** Values, names and reasons stay, so two errors that are the
same without locations blame the same thing in two places. -/
def RunError.unlocated : RunError → RunError
  | .unknownFunction _ name => .unknownFunction default name
  | .unknownTemplate _ name => .unknownTemplate default name
  | .missingTemplate name => .missingTemplate name
  | .notAMapping _ property found => .notAMapping default property found
  | .notIterable _ found => .notIterable default found
  | .templateName _ found => .templateName default found
  | .functionFailed _ name reason => .functionFailed default name reason
  | .notAnExpression _ => .notAnExpression default
  | .notAStatement _ => .notAStatement default
  | .write => .write

/-- **The reason to stop without its location.** Being too deep has none. -/
def Halt.unlocated : Halt → Halt
  | .failed error => .failed error.unlocated
  | .tooDeep => .tooDeep

namespace Run

variable {α β : Type}

/-- **The run without the location of its error**: it writes the same. -/
def unlocated (run : Run α) : Run α := fun sink =>
  match run sink with
  | .ok value sink => .ok value sink
  | .error halt sink => .error halt.unlocated sink

theorem unlocated_get : unlocated (get : Run Sink) = get := rfl

theorem unlocated_ofExcept (result : Except RunError α) :
    unlocated (ofExcept result) = ofExcept (result.mapError RunError.unlocated) := by
  cases result <;> rfl

/-- One run after the other, without the location of the error of either. -/
theorem unlocated_bind (first : Run α) (next : α → Run β) :
    unlocated (first >>= next) = unlocated first >>= fun value => unlocated (next value) := by
  funext sink
  show unlocated (EStateM.bind first next) sink = EStateM.bind _ _ sink
  simp only [unlocated, EStateM.bind]
  cases first sink <;> rfl

/-- A write fails without a location. -/
theorem unlocated_put (text : String) : unlocated (put text) = put text := by
  rw [put, unlocated_bind, unlocated_get]
  apply congrArg
  funext sink
  cases sink.write? text <;> rfl

theorem unlocated_forM (items : List α) (run : α → Run Unit) :
    unlocated (items.forM run) = items.forM fun item => unlocated (run item) := by
  induction items with
  | nil => rfl
  | cons item items ih =>
    show unlocated (run item >>= fun _ => items.forM run)
      = unlocated (run item) >>= fun _ => items.forM fun item => unlocated (run item)
    rw [unlocated_bind, ih]

end Run

/-- The same environment without the locations of the templates. -/
def Env.unlocated (env : Env) : Env where
  set := env.set.unlocated
  data := env.data

theorem Env.functions_unlocated (env : Env) :
    env.unlocated.set.functions = env.set.functions := rfl

theorem Env.template?_unlocated (env : Env) (name : String) :
    env.unlocated.set.template? name = (env.set.template? name).map Node.unlocated :=
  env.set.template?_unlocated name

/-! ### Expressions

`unlocated` is taken of an environment, of a tree and of what comes out, and every lemma has the
same form: computing without locations is computing with them and forgetting them in the error. So
the lemmas are put together by rewriting, and no proof has to look at an error. -/

/-- Following a path, the location is for the error alone. -/
theorem follow_unlocated (loc : Location) (path : List String) (value : Value) :
    follow default path value = (follow loc path value).mapError RunError.unlocated := by
  fun_induction follow loc path value with
  | case1 => rfl
  | case2 => rfl
  | case3 property path fields ih => rw [← ih]; rfl
  | case4 property path value hnull hobject =>
    rw [follow]
    · rfl
    · exact hnull
    · exact hobject

/-- Where a call stands is for its error alone. -/
theorem applyFunction_unlocated (loc : Location) (name : String) (function : HostFunction)
    (args : List Value) :
    applyFunction default name function args
      = (applyFunction loc name function args).mapError RunError.unlocated := by
  rw [applyFunction, applyFunction]
  cases function args <;> rfl

mutual

/-- **The value of an expression does not depend on locations**, and its error only in the location.
A function gets values and never learns where it is called. -/
theorem evaluate_unlocated (env : Env) : ∀ expr : Node,
    evaluate env.unlocated expr.unlocated = (evaluate env expr).mapError RunError.unlocated
  | .literal .. => rfl
  | .reference loc path => follow_unlocated loc path env.data
  | .call loc name args => by
    have hargs := evaluateAll_unlocated env args
    rw [Node.unlocated_call, evaluate, evaluate, hargs, Env.functions_unlocated]
    cases env.set.functions.find? name with
    | none => rfl
    | some function =>
      cases evaluateAll env args with
      | error e => rfl
      | ok values => exact applyFunction_unlocated loc name function values
  | .text .. | .interpolation .. | .inclusion .. | .block .. | .list .. => rfl

theorem evaluateAll_unlocated (env : Env) : ∀ exprs : List Node,
    evaluateAll env.unlocated (exprs.map Node.unlocated)
      = (evaluateAll env exprs).mapError RunError.unlocated
  | [] => rfl
  | expr :: exprs => by
    rw [List.map_cons, evaluateAll, evaluateAll, evaluate_unlocated env expr,
      evaluateAll_unlocated env exprs]
    cases evaluate env expr with
    | error e => rfl
    | ok value => cases evaluateAll env exprs <;> rfl

end

/-! ### Statements

The induction is on the depth, for all environments and statements, as inclusions go to other trees
and blocks to other data. What is assumed of the runs inside has a name (`Blind`), so that what a
block and what an inclusion do are lemmas of their own. -/

namespace Env

theorem forInclusion_unlocated (env : Env) (data : Option Node) :
    env.unlocated.forInclusion (data.map Node.unlocated)
      = ((env.forInclusion data).mapError RunError.unlocated).map Env.unlocated := by
  cases data with
  | none => rfl
  | some data =>
    rw [Option.map_some, forInclusion, forInclusion, evaluate_unlocated]
    cases evaluate env data <;> rfl

variable {depth : Nat}

/-- Runs up to a depth do not look at locations. -/
def Blind (depth : Nat) : Prop :=
  ∀ env node, run depth env.unlocated node.unlocated = (run depth env node).unlocated

theorem forM_unlocated (h : Blind depth) (env : Env) (items : List Node) :
    (items.map Node.unlocated).forM (run depth env.unlocated)
      = Run.unlocated (items.forM (run depth env)) := by
  rw [Run.unlocated_forM]
  induction items with
  | nil => rfl
  | cons item items ih =>
    show (run depth env.unlocated item.unlocated >>= fun _ =>
        (items.map Node.unlocated).forM (run depth env.unlocated))
      = (run depth env item).unlocated >>= fun _ =>
        items.forM fun item => (run depth env item).unlocated
    rw [ih, h env item]

theorem runBranch_unlocated (h : Blind depth) (env : Env) (loc : Location) (kind : BlockKind)
    (value : Value) (body : Node) (orElse : Option Node) :
    runBranch depth env.unlocated default kind value body.unlocated (orElse.map Node.unlocated)
      = (runBranch depth env loc kind value body orElse).unlocated := by
  unfold runBranch
  split
  · cases kind with
    | ifBlock => exact h env body
    | withBlock => exact h (env.withData value) body
    | range =>
      cases value.items? with
      | none => rfl
      | some items =>
        rw [Run.unlocated_forM]
        exact congrArg (items.forM ·) (funext fun item => h (env.withData item) body)
  · cases orElse with
    | none => rfl
    | some other => exact h env other

theorem runIncluded_unlocated (h : Blind depth) (env : Env) (loc : Location) (data : Option Node)
    (value : Value) :
    runIncluded depth env.unlocated default (data.map Node.unlocated) value
      = (runIncluded depth env loc data value).unlocated := by
  cases value with
  | string name =>
    rw [runIncluded, runIncluded, template?_unlocated, forInclusion_unlocated]
    cases env.set.template? name with
    | none => rfl
    | some root =>
      rw [Run.unlocated_bind, Run.unlocated_ofExcept]
      cases env.forInclusion data with
      | error e => rfl
      | ok env => exact h env root
  | _ => rfl

/-- **The run of a tree does not look at locations**: without them it writes the same and ends
alike, at the same depth. -/
theorem run_unlocated (depth : Nat) (env : Env) (node : Node) :
    run depth env.unlocated node.unlocated = (run depth env node).unlocated := by
  induction depth generalizing env node with
  | zero => rfl
  | succ depth ih =>
    cases node with
    | text loc content => exact (Run.unlocated_put content).symm
    | interpolation loc expr =>
      rw [Node.unlocated_interpolation, run, run, Run.unlocated_bind, Run.unlocated_ofExcept,
        ← evaluate_unlocated]
      apply congrArg
      funext value
      cases value.output? with
      | none => rfl
      | some text => exact (Run.unlocated_put text).symm
    -- the value of the name is the same; only an error in it would know a location
    | inclusion loc name data =>
      rw [Node.unlocated_inclusion, run_inclusion, run_inclusion, Run.unlocated_bind,
        Run.unlocated_ofExcept, ← evaluate_unlocated]
      apply congrArg
      funext value
      exact runIncluded_unlocated ih env loc data value
    | block loc kind expr body orElse =>
      rw [Node.unlocated_block, run_block, run_block, Run.unlocated_bind, Run.unlocated_ofExcept,
        ← evaluate_unlocated]
      apply congrArg
      funext value
      exact runBranch_unlocated ih env loc kind value body orElse
    | list loc items =>
      rw [Node.unlocated_list, run, run]
      exact forM_unlocated ih env items
    | reference | call | literal => rfl

theorem execute_unlocated (depth : Nat) (env : Env) (name : String) :
    execute depth env.unlocated name = (execute depth env name).unlocated := by
  rw [execute, execute, template?_unlocated]
  cases env.set.template? name with
  | none => rfl
  | some root => exact run_unlocated depth env root

/-- **The output of a template has nothing to do with locations**, and if there is none, the error
is the same in another place. -/
theorem render_unlocated (depth : Nat) (env : Env) (name : String) :
    render depth env.unlocated name = (render depth env name).mapError Halt.unlocated := by
  rw [render, render, execute_unlocated]
  simp only [EStateM.run, Run.unlocated]
  cases execute depth env name Sink.empty <;> rfl

end Env

/-- **Sets with the same trees render alike**, given the same functions, whichever they had
before. -/
theorem TemplateSet.SameTrees.render_eq {set other : TemplateSet} (h : SameTrees set other)
    (functions : FunctionRegistry) (data : Value) (depth : Nat) (name : String) :
    (((set.withFunctions functions).env data).render depth name).mapError Halt.unlocated
      = (((other.withFunctions functions).env data).render depth name).mapError Halt.unlocated := by
  rw [← Env.render_unlocated, ← Env.render_unlocated, Env.unlocated, Env.unlocated]
  simp only [env, h.unlocated_withFunctions_eq functions]

/-! ### Two sets

Two sets that agree up to locations are the same set once those are forgotten. Hence nothing has to
be proved of two runs side by side: each is compared with the run of that one set. -/

namespace TemplateSet

variable {set other : TemplateSet}

/-- A set is known by its trees and functions: where they agree but for locations, so do the
sets. -/
theorem unlocated_eq
    (htrees : ∀ name, (set.template? name).map Node.unlocated
      = (other.template? name).map Node.unlocated)
    (hfunctions : ∀ name, set.functions.find? name = other.functions.find? name) :
    set.unlocated = other.unlocated := by
  refine ext_find? (fun name => ?_) hfunctions
  rw [template?_unlocated, template?_unlocated, htrees name]

/-- **Runs are blind to locations.** If two sets have the same names, under each the same tree up to
locations, and the same functions, then a template does the same in both, on any data and to any
sink: it leaves the sink with the same text, and ends with the same result up to the location in
an error. -/
theorem runs_are_blind_to_locations
    (htrees : ∀ name, (set.template? name).map Node.unlocated
      = (other.template? name).map Node.unlocated)
    (hfunctions : ∀ name, set.functions.find? name = other.functions.find? name)
    (data : Value) (depth : Nat) (name : String) (sink : Sink) :
    ((set.env data).execute depth name).unlocated sink
      = ((other.env data).execute depth name).unlocated sink := by
  have henv : (set.env data).unlocated = (other.env data).unlocated := by
    rw [Env.unlocated, Env.unlocated]
    simp only [env, unlocated_eq htrees hfunctions]
  rw [← Env.execute_unlocated, ← Env.execute_unlocated, henv]

/-- One call in two places: the text before it is written, and the error is the same elsewhere. -/
theorem missing_function_is_missing_elsewhere :
    let tree (loc : Location) :=
      Node.list loc [.text loc "Hi ", .interpolation loc (.call loc "f" [])]
    let set := setTemplate ∅ "m" (tree ⟨"a", 1⟩)
    let other := setTemplate ∅ "m" (tree ⟨"b", 7⟩)
    ((set.env .null).execute 2 "m").unlocated Sink.empty
        = ((other.env .null).execute 2 "m").unlocated Sink.empty ∧
      (set.env .null).execute 2 "m" Sink.empty
        = .error (.failed (.unknownFunction ⟨"a", 1⟩ "f")) ⟨"Hi ", none⟩ ∧
      (other.env .null).execute 2 "m" Sink.empty
        = .error (.failed (.unknownFunction ⟨"b", 7⟩ "f")) ⟨"Hi ", none⟩ := by
  intro tree set other
  have htrees : ∀ name, (set.template? name).map Node.unlocated
      = (other.template? name).map Node.unlocated := by
    intro name
    rw [template?_setTemplate, template?_setTemplate]
    split <;> rfl
  exact ⟨runs_are_blind_to_locations htrees (fun _ => rfl) .null 2 "m" Sink.empty, rfl, rfl⟩

end TemplateSet

end Stencil
