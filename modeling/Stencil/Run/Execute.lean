import Stencil.Run.Evaluate
import Stencil.Run.Sink

/-!
# Running templates

Statements write to a sink, one after the other, until the end or the first error; what
was written before an error stays. Templates may include one another without end, so a run is
given a depth, the number of statements that may be nested in one another, inclusions counted;
a run that stays within its depth does not depend on it.
-/

namespace Stencil

/-- **Why a run stops** before its end. Being too deep is no error of the template: the run might
have gone on with a greater depth. -/
inductive Halt
  /-- it fails -/
  | failed (error : RunError)
  /-- its statements are nested deeper than it may go -/
  | tooDeep
  deriving DecidableEq, Repr

/-- **A computation that writes** to a sink and may stop. Stopping keeps the sink: what has been
written is not taken back. -/
abbrev Run : Type → Type :=
  EStateM Halt Sink

namespace Run

/-- Stops with an error. -/
def fail {α : Type} (error : RunError) : Run α :=
  throw (.failed error)

/-- Goes on with a value, or stops with the error that is there instead. -/
def ofExcept {α : Type} : Except RunError α → Run α
  | .ok value => pure value
  | .error error => fail error

/-- Writes a text in one write. -/
def put (text : String) : Run Unit := do
  match (← get).write? text with
  | some sink => set sink
  | none => fail .write

end Run

/-- **What a range goes over**: the items of an array, or the names of an object's fields. Null and
whatever else does not hold never come here, as a block asks that first. -/
def Value.items? : Value → Option (List Value)
  | .array items => some items
  | .object fields => some (fields.map fun (name, _) => .string name)
  | _ => none

namespace Env

/-- The environment of an inclusion: the same, or one with data of its own. -/
def forInclusion (env : Env) : Option Node → Except RunError Env
  | none => .ok env
  | some data => (evaluate env data).map env.withData

/-- **Runs a statement**, with a number of statements that may be nested. The number goes down by
one from a statement to those inside it, and not from one item of a list or a range to the next;
without it, templates that include one another would have no run. -/
def run : Nat → Env → Node → Run Unit
  | 0, _, _ => throw .tooDeep
  | depth + 1, env, node =>
    match node with
    | .text _ content => Run.put content
    | .interpolation _ expr => do
      match (← Run.ofExcept (evaluate env expr)).output? with
      | some text => Run.put text
      | none => pure ()
    | .inclusion loc name data => do
      match ← Run.ofExcept (evaluate env name) with
      | .string name =>
        match env.set.template? name with
        | none => Run.fail (.unknownTemplate loc name)
        | some root => run depth (← Run.ofExcept (env.forInclusion data)) root
      | value => Run.fail (.templateName loc value)
    | .block loc kind expr body orElse => do
      let value ← Run.ofExcept (evaluate env expr)
      if value.isTruthy then
        match kind with
        | .ifBlock => run depth env body
        | .withBlock => run depth (env.withData value) body
        | .range =>
          match value.items? with
          | some items => items.forM fun item => run depth (env.withData item) body
          | none => Run.fail (.notIterable loc value)
      else
        match orElse with
        | some other => run depth env other
        | none => pure ()
    | .list _ items => items.forM fun item => run depth env item
    | .reference loc _ | .call loc _ _ | .literal loc _ => Run.fail (.notAStatement loc)

/-- **Runs a template** of the set, from its root, on the data of the environment. -/
def execute (depth : Nat) (env : Env) (name : String) : Run Unit :=
  match env.set.template? name with
  | some root => env.run depth root
  | none => Run.fail (.missingTemplate name)

/-- **The output of a template** of the set, written to an empty sink. What a run has written before
an error is not part of the answer. -/
def render (depth : Nat) (env : Env) (name : String) : Except Halt String :=
  match EStateM.run (env.execute depth name) Sink.empty with
  | .ok _ sink => .ok sink.held
  | .error halt _ => .error halt

end Env

end Stencil
