import Mathlib.Logic.Relation
import Stencil.Proofs.Run.Steps

/-!
# Runs, event by event

The trace of a run says which statements it came to, in what order and on which data, what each did
by itself, and how the run ended (`Env.trace`). A sink sees the outputs among the events and the end
and nothing else: a run is its trace, replayed (`Env.execute_eq_replay`). What holds of the roots of
all templates, and of the parts of a statement with the statement, holds of everything that a run
comes to (`Env.mem_trace_invariant`, `Env.halt_trace_invariant`).
-/

namespace Stencil

/-- **What a run came to**: a statement, and what it did by itself. The same statement has an event
each time that the run comes to it. -/
structure Event where
  /-- the template of the statement -/
  template : String
  /-- where the statement stands -/
  loc : Location
  /-- the data it ran on -/
  data : Value
  /-- what it did -/
  action : Action
  deriving DecidableEq, Repr

/-- The event of a statement that does something. -/
def Task.event (task : Task) (action : Action) : Event where
  template := task.template
  loc := task.node.loc
  data := task.env.data
  action := action

/-- **The record of a run**: its events in order, and why it stopped before its end, if it did.
Every statement that does not fail by itself has an event, also one that writes nothing. -/
structure Trace where
  /-- what the run came to -/
  events : List Event
  /-- why it stopped -/
  halt? : Option Halt
  deriving DecidableEq, Repr

/-- Goes on, or stops. -/
def Run.ending : Option Halt → Run Unit
  | none => pure ()
  | some halt => throw halt

namespace Trace

/-- A run that comes to nothing: it ends, or stops at once. -/
def ending (halt? : Option Halt) : Trace := ⟨[], halt?⟩

/-- One more event, before all others. -/
def cons (event : Event) (trace : Trace) : Trace :=
  ⟨event :: trace.events, trace.halt?⟩

/-- One run after the other: if the first stops, the second does not begin, and is not in the
trace. -/
def append (first second : Trace) : Trace :=
  match first.halt? with
  | none => ⟨first.events ++ second.events, second.halt?⟩
  | some _ => first

/-- Runs in a row. -/
def concat (traces : List Trace) : Trace :=
  traces.foldr append (ending none)

/-- The texts that were written, write by write. -/
def outputs (trace : Trace) : List String :=
  trace.events.filterMap (·.action.output?)

/-- **What a sink sees of a trace**: the writes one by one, then the end. Events that write nothing
leave no mark on it. -/
def replay (trace : Trace) : Run Unit :=
  (trace.events.forM fun event => Run.putSome event.action.output?) >>= fun _ =>
    Run.ending trace.halt?

/-- Traces are made of their end and their events, from the last to the first. -/
@[elab_as_elim]
theorem induction {P : Trace → Prop} (ending : ∀ halt?, P (ending halt?))
    (cons : ∀ event trace, P trace → P (cons event trace)) (trace : Trace) : P trace := by
  obtain ⟨events, halt?⟩ := trace
  induction events with
  | nil => exact ending halt?
  | cons event events ih => exact cons event ⟨events, halt?⟩ ih

variable {event : Event} {halt : Halt} {first second : Trace} {traces : List Trace}

theorem append_cons : (cons event first).append second = cons event (first.append second) := by
  obtain ⟨events, halt?⟩ := first
  cases halt? <;> rfl

theorem concat_cons : concat (first :: traces) = first.append (concat traces) := rfl

theorem outputs_cons :
    (cons event first).outputs = event.action.output?.toList ++ first.outputs := by
  rw [outputs, cons, List.filterMap_cons]
  cases event.action.output? <;> rfl

/-- Of runs in a row, the events are those of each. -/
theorem exists_of_mem_concat (h : event ∈ (concat traces).events) :
    ∃ trace ∈ traces, event ∈ trace.events := by
  induction traces with
  | nil => cases h
  | cons first traces ih =>
    rw [concat_cons, append] at h
    split at h
    · rcases List.mem_append.1 h with h | h
      · exact ⟨first, List.mem_cons_self, h⟩
      · obtain ⟨trace, htrace, hevent⟩ := ih h
        exact ⟨trace, List.mem_cons_of_mem _ htrace, hevent⟩
    · exact ⟨first, List.mem_cons_self, h⟩

/-- Runs in a row stop because one of them does. -/
theorem exists_of_halt_concat (h : (concat traces).halt? = some halt) :
    ∃ trace ∈ traces, trace.halt? = some halt := by
  induction traces with
  | nil => cases h
  | cons first traces ih =>
    rw [concat_cons, append] at h
    split at h
    · obtain ⟨trace, htrace, hhalt⟩ := ih h
      exact ⟨trace, List.mem_cons_of_mem _ htrace, hhalt⟩
    · exact ⟨first, List.mem_cons_self, h⟩

/-! ### Replay

Replaying goes event by event, and respects how traces are put together: what is one trace behind
another is one run behind another. From these equations the run of a statement is its trace, by
induction on the depth and with no look at what the statements do. -/

theorem replay_cons :
    (cons event first).replay = Run.putSome event.action.output? >>= fun _ => first.replay :=
  bind_assoc (m := Run) (Run.putSome event.action.output?) _ _

theorem replay_append : (first.append second).replay = first.replay >>= fun _ => second.replay := by
  induction first using Trace.induction with
  | ending halt? => cases halt? <;> rfl
  | cons event first ih =>
    rw [append_cons, replay_cons, replay_cons, ih]
    exact (bind_assoc (m := Run) (Run.putSome event.action.output?) _ _).symm

theorem replay_concat : (concat traces).replay = traces.forM replay := by
  induction traces with
  | nil => rfl
  | cons first traces ih =>
    rw [concat_cons, replay_append, ih]
    rfl

end Trace

/-! ### The trace of a run

A trace is made of what each statement does by itself and of what it leaves to run (`Task.step`), so
the kinds of statements are gone through there, once, and never in an induction over runs. It
does not know of a sink. That a run fails at a sink is no event: it is what replaying comes to. -/

/-- **The trace of a statement**, with a number of statements that may be nested. The event of the
statement is before those of what it leaves to run, and there is none for one that fails. -/
def Task.trace : Nat → Task → Trace
  | 0, _ => .ending (some .tooDeep)
  | depth + 1, task =>
    match task.step with
    | .error e => .ending (some (.failed e))
    | .ok (action, next) => .cons (task.event action) (.concat (next.map (trace depth)))

/-- **The trace of a template** of the set; for a name that the set does not have, the failure that
it ends with at once. -/
def Env.trace (depth : Nat) (env : Env) (name : String) : Trace :=
  match env.set.template? name with
  | some root => Task.trace depth ⟨env, name, root⟩
  | none => .ending (some (.failed (.missingTemplate name)))

section Trace

variable {depth : Nat} {env : Env} {name : String}

theorem Env.trace_of_some {root : Node} (h : env.set.template? name = some root) :
    env.trace depth name = Task.trace depth ⟨env, name, root⟩ := by
  rw [trace, h]

theorem Env.trace_of_none (h : env.set.template? name = none) :
    env.trace depth name = .ending (some (.failed (.missingTemplate name))) := by
  rw [trace, h]

end Trace

/-- The run of a statement is its trace, replayed. -/
theorem Task.run_eq_replay (depth : Nat) (task : Task) :
    task.env.run depth task.node = (task.trace depth).replay := by
  induction depth generalizing task with
  | zero => rfl
  | succ depth ih =>
    rw [Env.run_succ, trace]
    cases task.step with
    | error e => rfl
    | ok step =>
      obtain ⟨action, next⟩ := step
      have hnext : (next.map (trace depth)).forM Trace.replay
          = next.forM fun other => other.env.run depth other.node := by
        rw [funext ih]
        exact List.forM_map (l := next) (m := Run)
      rw [Trace.replay_cons, Trace.replay_concat, hnext]
      rfl

/-- **A run is its trace, replayed.** What is proved of traces, which know of no sink, is so proved
of what runs. -/
theorem Env.execute_eq_replay (depth : Nat) (env : Env) (name : String) :
    env.execute depth name = (env.trace depth name).replay := by
  rw [execute]
  cases hfind : env.set.template? name with
  | none =>
    rw [trace_of_none hfind]
    rfl
  | some root =>
    rw [trace_of_some hfind]
    exact Task.run_eq_replay depth ⟨env, name, root⟩

/-! ### Sinks

Writing is all that a run does to a sink, and a write is whole or leaves the sink as it is. By
induction over the trace this becomes a statement about whole runs: what a sink holds has grown by
the first writes of the run, by all of them if there is no limit. -/

/-- **Where a run leaves a sink**, whether it ends or stops. -/
def Run.after (run : Run Unit) (sink : Sink) : Sink :=
  match run sink with
  | .ok _ sink => sink
  | .error _ sink => sink

section After

variable {first second : Run Unit} {sink sink' : Sink} {halt : Halt}

theorem Run.after_bind_of_ok (h : first sink = .ok () sink') :
    (first >>= fun _ => second).after sink = second.after sink' := by
  simp only [after, bind, EStateM.bind, h]

theorem Run.after_bind_of_error (h : first sink = .error halt sink') :
    (first >>= fun _ => second).after sink = sink' := by
  simp only [after, bind, EStateM.bind, h]

end After

/-- A write is whole, or fails and leaves the sink as it is. -/
theorem Run.put_eq (text : String) (sink : Sink) :
    put text sink
      = if sink.takes text then .ok () { sink with held := sink.held ++ text }
        else .error (.failed .write) sink := by
  have hget : (get : Run Sink) sink = .ok sink sink := rfl
  by_cases htakes : sink.takes text = true
  · have hwrite : sink.write? text = some { sink with held := sink.held ++ text } := if_pos htakes
    simp only [put, bind, EStateM.bind, hget, hwrite, htakes]
    rfl
  · have hwrite : sink.write? text = none := if_neg htakes
    simp only [put, bind, EStateM.bind, hget, hwrite, htakes]
    rfl

/-- A write without a limit does not fail. -/
theorem Run.putSome_cases (text? : Option String) (sink : Sink) :
    putSome text? sink = .ok () { sink with held := sink.held ++ String.join text?.toList } ∨
      sink.limit? ≠ none ∧ putSome text? sink = .error (.failed .write) sink := by
  cases text? with
  | none =>
    left
    rw [Option.toList_none, String.join_nil, String.append_empty]
    rfl
  | some text =>
    rw [Option.toList_some, String.join_cons, String.join_nil, String.append_empty, putSome, put_eq]
    by_cases htakes : sink.takes text = true
    · exact .inl (if_pos htakes)
    · refine .inr ⟨?_, if_neg htakes⟩
      intro hlimit
      exact htakes (by rw [Sink.takes, hlimit])

namespace Trace

/-- A sink without a limit takes all that is written. -/
theorem replay_unlimited (trace : Trace) (held : String) :
    trace.replay ⟨held, none⟩
      = Run.ending trace.halt? ⟨held ++ String.join trace.outputs, none⟩ := by
  induction trace using Trace.induction generalizing held with
  | ending halt? =>
    rw [outputs, ending, List.filterMap_nil, String.join_nil, String.append_empty]
    rfl
  | cons event trace ih =>
    -- a write can only fail for a limit
    have hput := (Run.putSome_cases event.action.output? ⟨held, none⟩).resolve_right
      fun h => h.1 rfl
    rw [outputs_cons, String.join_append, ← String.append_assoc, replay_cons]
    simp only [bind, EStateM.bind, hput]
    exact ih (held ++ String.join event.action.output?.toList)

/-- **A sink gets the first writes of a run**, each of them whole: those before the first one that
it refuses. -/
theorem exists_prefix_of_replay (trace : Trace) (sink : Sink) :
    ∃ written, written <+: trace.outputs ∧
      trace.replay.after sink = { sink with held := sink.held ++ String.join written } := by
  induction trace using Trace.induction generalizing sink with
  | ending halt? =>
    refine ⟨[], List.nil_prefix, ?_⟩
    rw [String.join_nil, String.append_empty]
    cases halt? <;> rfl
  | cons event trace ih =>
    rw [outputs_cons, replay_cons]
    rcases Run.putSome_cases event.action.output? sink with hput | ⟨-, hput⟩
    · obtain ⟨written, hwritten, hsink⟩ :=
        ih { sink with held := sink.held ++ String.join event.action.output?.toList }
      refine ⟨event.action.output?.toList ++ written,
        (List.prefix_append_right_inj _).2 hwritten, ?_⟩
      rw [Run.after_bind_of_ok hput, String.join_append, ← String.append_assoc]
      exact hsink
    -- refused: this write and all behind it are lost
    · refine ⟨[], List.nil_prefix, ?_⟩
      rw [Run.after_bind_of_error hput, String.join_nil, String.append_empty]

end Trace

/-- The output of a template is what its trace has written. -/
theorem Env.render_eq (depth : Nat) (env : Env) (name : String) :
    env.render depth name
      = match (env.trace depth name).halt? with
        | none => .ok (String.join (env.trace depth name).outputs)
        | some halt => .error halt := by
  rw [render, execute_eq_replay, Sink.empty, EStateM.run, Trace.replay_unlimited,
    String.empty_append]
  cases (env.trace depth name).halt? <;> rfl

/-! ### What a run comes to

Every statement of a run stands in a template of the set. Hence an invariant of runs needs two
things only: it holds of the roots of all templates, and passes from a statement to its parts.
`ComesTo` is the relation that the induction goes over, and events and failures are at statements of
it. -/

namespace Task

/-- A statement leaves another one to run: a part of itself, or the root of a template that it
includes. -/
def Leaves (task other : Task) : Prop :=
  ∃ action next, task.step = .ok (action, next) ∧ other ∈ next

/-- **The run of a statement comes to another**: it leaves it, or one that comes to it. No depth is
in this: a run may stop before it gets there. -/
def ComesTo : Task → Task → Prop :=
  Relation.ReflTransGen Leaves

variable {start task : Task} {depth : Nat}

/-- **What a run comes to.** What holds of the roots of all templates, and of the parts of a
statement with the statement, holds of all that a statement comes to of which it holds. -/
theorem ComesTo.invariant {P : String → Node → Prop}
    (hroot : ∀ name root, start.env.set.template? name = some root → P name root)
    (hpart : ∀ name node part, P name node → part ∈ node.parts → P name part)
    (hstart : P start.template start.node) (h : start.ComesTo task) :
    task.env.set = start.env.set ∧ P task.template task.node := by
  induction h with
  | refl => exact ⟨rfl, hstart⟩
  | @tail task other _ hleaves ih =>
    obtain ⟨hset, hholds⟩ := ih
    obtain ⟨action, next, hstep, hother⟩ := hleaves
    obtain ⟨hsame, hnode⟩ := mem_of_step hstep hother
    refine ⟨hsame.trans hset, ?_⟩
    -- what is left to run is a part of the statement, or the root of a template
    rcases hnode with ⟨htemplate, hmem⟩ | hfind
    · rw [htemplate]
      exact hpart _ _ _ hholds hmem
    · rw [hset] at hfind
      exact hroot _ _ hfind

/-- An event is of a statement that the run came to. -/
theorem exists_of_mem_trace {event : Event} (h : event ∈ (start.trace depth).events) :
    ∃ task action next, start.ComesTo task ∧ task.step = .ok (action, next) ∧
      event = task.event action := by
  induction depth generalizing start with
  | zero => cases h
  | succ depth ih =>
    rw [trace] at h
    cases hstep : start.step with
    | error e =>
      rw [hstep] at h
      cases h
    | ok step =>
      obtain ⟨action, next⟩ := step
      rw [hstep] at h
      rcases List.mem_cons.1 h with rfl | h
      -- the event of the statement itself, or of something that it leaves
      · exact ⟨start, action, next, .refl, hstep, rfl⟩
      · obtain ⟨trace, htrace, hevent⟩ := Trace.exists_of_mem_concat h
        obtain ⟨other, hother, rfl⟩ := List.mem_map.1 htrace
        obtain ⟨task, action', next', hcomes, htask, rfl⟩ := ih hevent
        exact ⟨task, action', next', .head ⟨action, next, hstep, hother⟩ hcomes, htask, rfl⟩

/-- A run fails at a statement that it came to. -/
theorem exists_of_halt_trace {e : RunError} (h : (start.trace depth).halt? = some (.failed e)) :
    ∃ task, start.ComesTo task ∧ task.step = .error e := by
  induction depth generalizing start with
  | zero => cases h
  | succ depth ih =>
    rw [trace] at h
    cases hstep : start.step with
    | error e' =>
      rw [hstep] at h
      cases h
      exact ⟨start, .refl, hstep⟩
    | ok step =>
      obtain ⟨action, next⟩ := step
      rw [hstep] at h
      obtain ⟨trace, htrace, hhalt⟩ := Trace.exists_of_halt_concat h
      obtain ⟨other, hother, rfl⟩ := List.mem_map.1 htrace
      obtain ⟨task, hcomes, htask⟩ := ih hhalt
      exact ⟨task, .head ⟨action, next, hstep, hother⟩ hcomes, htask⟩

end Task

namespace Env

variable {depth : Nat} {env : Env} {name : String} {P : String → Node → Prop}

/-- **What holds of all roots and passes to parts holds where an event is.** It is the form in which
invariants of runs are used. -/
theorem mem_trace_invariant (hroot : ∀ name root, env.set.template? name = some root → P name root)
    (hpart : ∀ name node part, P name node → part ∈ node.parts → P name part) {event : Event}
    (h : event ∈ (env.trace depth name).events) :
    ∃ (task : Task) (action : Action) (next : List Task), task.env.set = env.set ∧
      P task.template task.node ∧ task.step = .ok (action, next) ∧ event = task.event action := by
  cases hfind : env.set.template? name with
  | none =>
    rw [trace_of_none hfind] at h
    cases h
  | some root =>
    rw [trace_of_some hfind] at h
    obtain ⟨task, action, next, hcomes, hstep, rfl⟩ := Task.exists_of_mem_trace h
    obtain ⟨hset, hholds⟩ := hcomes.invariant hroot hpart (hroot name root hfind)
    exact ⟨task, action, next, hset, hholds, hstep, rfl⟩

/-- **What holds of all roots and passes to parts holds where a run fails**, unless the template is
missing. -/
theorem halt_trace_invariant (hroot : ∀ name root, env.set.template? name = some root → P name root)
    (hpart : ∀ name node part, P name node → part ∈ node.parts → P name part) {e : RunError}
    (h : (env.trace depth name).halt? = some (.failed e)) :
    env.set.template? name = none ∧ e = .missingTemplate name ∨
      ∃ task : Task, task.env.set = env.set ∧ P task.template task.node ∧ task.step = .error e := by
  cases hfind : env.set.template? name with
  | none =>
    rw [trace_of_none hfind] at h
    cases h
    exact .inl ⟨rfl, rfl⟩
  | some root =>
    rw [trace_of_some hfind] at h
    obtain ⟨task, hcomes, hstep⟩ := Task.exists_of_halt_trace h
    obtain ⟨hset, hholds⟩ := hcomes.invariant hroot hpart (hroot name root hfind)
    exact .inr ⟨task, hset, hholds, hstep⟩

end Env

end Stencil
