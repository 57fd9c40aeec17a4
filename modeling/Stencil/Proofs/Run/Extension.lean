import Stencil.Proofs.Run.Growth

/-!
# Runs in larger sets

A set may be part of a larger one, which has its templates and functions and more of them. A result
stands in the larger set unless something was missing for it (`Stands`): expressions are evaluated
in one order and ask for one function after the other, so the first that is missing is all that the
larger set can change. The same goes for the steps of a run, and so for the run
(`Env.trace_grows_inSet`): what it has written by then stays, and if nothing was missing all stays
(`extension_keeps_settled_runs`).
-/

namespace Stencil

/-- **A set is part of another**, which has all its templates and functions. What else the other has
is not restricted. -/
structure TemplateSet.IsPartOf (set larger : TemplateSet) : Prop where
  /-- every template is there, with the same tree -/
  template? : ∀ name root, set.template? name = some root → larger.template? name = some root
  /-- every function is there, and answers alike -/
  function? : ∀ name function, set.functions.find? name = some function →
    ∃ other, larger.functions.find? name = some other ∧ ∀ args, other args = function args

namespace TemplateSet.IsPartOf

variable {set larger : TemplateSet} {name : String}

/-- A new template makes a larger set. -/
theorem setTemplate (h : set.template? name = none) (root : Node) :
    set.IsPartOf (set.setTemplate name root) where
  template? other tree htree := by
    rw [template?_setTemplate, if_neg, htree]
    rintro rfl
    rw [h] at htree
    cases htree
  function? _ function hfunction := ⟨function, hfunction, fun _ => rfl⟩

/-- A function of the set is the same in the larger one. -/
theorem find?_eq (h : set.IsPartOf larger) {function : HostFunction}
    (hfunction : set.functions.find? name = some function) :
    larger.functions.find? name = some function := by
  obtain ⟨other, hother, hsame⟩ := h.function? name function hfunction
  obtain rfl : other = function := funext hsame
  exact hother

end TemplateSet.IsPartOf

/-- **Something is missing** that a larger set may have: a function, or a template. No other error
can be mended by adding to a set. -/
def RunError.isMissing : RunError → Bool
  | .unknownFunction .. | .unknownTemplate .. | .missingTemplate _ => true
  | _ => false

/-- A run stops because something is missing. -/
def Halt.IsMissing (halt : Halt) : Prop :=
  ∃ e, halt = .failed e ∧ e.isMissing = true

/-! ### Results

`Stands` relates what the same computation comes to in the two sets. It is no equality: a run that
fails for something missing may come to anything where that is there. It is kept by composition, the
rest of a computation being asked for only where the first part has a value in both. -/

/-- **A result stands**: the other is the same, unless something was missing. Values always stand,
as do all other errors. -/
def Stands {α : Type} (result other : Except RunError α) : Prop :=
  other = result ∨ ∃ e, result = .error e ∧ e.isMissing = true

namespace Stands

variable {α β : Type} {result other : Except RunError α}

theorem refl (result : Except RunError α) : Stands result result := .inl rfl

theorem missing {e : RunError} (h : e.isMissing = true) (other : Except RunError α) :
    Stands (.error e) other :=
  .inr ⟨e, rfl, h⟩

/-- A computation stands if its first part does, and what it goes on with where that is done. -/
theorem bind {f g : α → Except RunError β} (h : Stands result other)
    (hnext : ∀ value, result = .ok value → Stands (f value) (g value)) :
    Stands (result.bind f) (other.bind g) := by
  rcases h with rfl | ⟨e, rfl, he⟩
  · cases other with
    | error e => exact refl _
    | ok value => exact hnext value rfl
  · exact missing he _

theorem map (h : Stands result other) (f : α → β) : Stands (result.map f) (other.map f) := by
  rcases h with rfl | ⟨e, rfl, he⟩
  · exact refl _
  · exact missing he _

end Stands

/-! ### Expressions

An expression asks its set for functions and nothing else. By induction its value stands; a call
asks for its function before its arguments are evaluated, so a function that is missing is what the
call fails for, whatever its arguments do. -/

mutual

/-- **The value of an expression stands.** A function is looked up before its arguments are
computed, so a missing one is found missing first. -/
theorem evaluate_stands {set larger : TemplateSet} (h : set.IsPartOf larger) {data : Value} :
    ∀ expr : Node, Stands (evaluate (set.env data) expr) (evaluate (larger.env data) expr)
  | .literal .. | .reference .. => .refl _
  | .call loc name args => by
    cases hfunction : set.functions.find? name with
    | none =>
      rw [evaluate_call_of_none hfunction]
      exact .missing rfl _
    | some function =>
      rw [evaluate_call_of_some hfunction, evaluate_call_of_some (h.find?_eq hfunction)]
      exact (evaluateAll_stands h args).bind fun values _ => .refl _
  | .text .. | .interpolation .. | .inclusion .. | .block .. | .list .. => .refl _

theorem evaluateAll_stands {set larger : TemplateSet} (h : set.IsPartOf larger) {data : Value} :
    ∀ exprs : List Node,
      Stands (evaluateAll (set.env data) exprs) (evaluateAll (larger.env data) exprs)
  | [] => .refl _
  | expr :: exprs => by
    rw [evaluateAll_cons, evaluateAll_cons]
    exact (evaluate_stands h expr).bind fun value _ => (evaluateAll_stands h exprs).map (value :: ·)

end

/-! ### Statements

A statement is taken into the larger set with the data it has there (`Task.inSet`). Besides
functions it may ask for a template. Blocks ask for neither, so what they go on with is the same in
both sets but for the set itself. -/

/-- **A statement in a larger set**, on the same data. -/
def Task.inSet (larger : TemplateSet) (task : Task) : Task :=
  { task with env := larger.env task.env.data }

section Extension

variable {set larger : TemplateSet} (h : set.IsPartOf larger)

include h

/-- What an inclusion runs in stands. -/
theorem forInclusion_stands (data : Value) (expr? : Option Node) :
    Stands (((set.env data).forInclusion expr?).map fun env => larger.env env.data)
      ((larger.env data).forInclusion expr?) := by
  cases expr? with
  | none => exact .refl _
  | some expr =>
    rw [Env.forInclusion, Env.forInclusion, map_map]
    exact (evaluate_stands h expr).map _

/-- **What an inclusion goes on with stands**, if its template is there. The trees are the same, so
only the data could be missing something. -/
theorem included_stands (data : Value) (loc : Location) (expr? : Option Node) (value : Value) :
    Stands
      (((set.env data).included loc expr? value).map fun found =>
        (found.1, larger.env found.2.1.data, found.2.2))
      ((larger.env data).included loc expr? value) := by
  cases value with
  | string name =>
    rw [Env.included, Env.included]
    cases hroot : (set.env data).set.template? name with
    | none => exact .missing rfl _
    | some root =>
      rw [show (larger.env data).set.template? name = some root from h.template? name root hroot]
      have henv := (forInclusion_stands h data expr?).map fun env => (name, env, root)
      rw [map_map] at henv
      dsimp only
      rwa [map_map]
  | _ => exact .refl _

/-- **The step of a statement stands**, and what it leaves to run is taken into the larger set. -/
theorem Task.step_stands {task : Task} (htask : task.env.set = set) :
    Stands (task.step.map fun step => (step.1, step.2.map (inSet larger)))
      (task.inSet larger).step := by
  obtain ⟨⟨set', data⟩, template, node⟩ := task
  obtain rfl : set' = set := htask
  cases node with
  | text => exact .refl _
  | interpolation loc expr =>
    rw [step_interpolation, map_map]
    exact (evaluate_stands h expr).map _
  -- the name stands, and with it what the inclusion goes on with
  | inclusion loc name expr? =>
    rw [step_inclusion, map_bind]
    refine (evaluate_stands h name).bind fun value _ => ?_
    have hincluded := (included_stands h data loc expr? value).map fun found =>
      (Action.includes found.1, [Task.mk found.2.1 found.1 found.2.2])
    rw [map_map] at hincluded ⊢
    exact hincluded
  -- once the value stands, the set plays no part any more
  | block loc kind expr body orElse =>
    rw [step_block, map_bind]
    refine (evaluate_stands h expr).bind fun value _ => ?_
    have hbranches := Env.branches_map set' larger id data loc kind value body orElse
    rw [Option.map_id, id, id] at hbranches
    rw [map_map, inSet, hbranches, map_map]
    simp only [List.map_map]
    exact .refl _
  | list loc items =>
    left
    simp only [inSet, step, Except.map, List.map_map]
    rfl
  | reference | call | literal => exact .refl _

/-! ### Runs

Run for run this is what a greater depth does to a run: a trace grows where it stopped for want of
something (`Trace.Grows`), here a function or a template. Both kinds of growth are combined at the
end: runs in the two sets may be given different depths, and are compared at the greater one. -/

/-- **In a larger set a run goes on** where something was missing, and is the same otherwise. -/
theorem Task.trace_grows_inSet (depth : Nat) {task : Task} (htask : task.env.set = set) :
    (task.trace depth).Grows Halt.IsMissing ((task.inSet larger).trace depth) := by
  induction depth generalizing task with
  | zero => exact .refl _
  | succ depth ih =>
    have hstands := step_stands h htask
    rw [trace, trace]
    cases hstep : task.step with
    | error e =>
      rw [hstep] at hstands
      rcases hstands with hsame | ⟨e', he', hmissing⟩
      · rw [hsame]
        exact .refl _
      · cases he'
        exact .ending ⟨e, rfl, hmissing⟩ _
    | ok step =>
      rw [hstep] at hstands
      obtain ⟨action, next⟩ := step
      rcases hstands with hsame | ⟨e', he', -⟩
      · rw [hsame]
        refine .cons _ ?_
        rw [List.map_map]
        -- what is left runs in the same set, so the induction goes on there
        refine .concat fun other hother => ?_
        exact ih ((mem_of_step hstep hother).1.trans htask)
      · cases he'

/-- So does the run of a template. -/
theorem Env.trace_grows_inSet (depth : Nat) (data : Value) (name : String) :
    ((set.env data).trace depth name).Grows Halt.IsMissing
      ((larger.env data).trace depth name) := by
  cases hroot : (set.env data).set.template? name with
  | none =>
    rw [trace_of_none hroot]
    exact .ending ⟨_, rfl, rfl⟩ _
  | some root =>
    have hlarger : (larger.env data).set.template? name = some root := h.template? name root hroot
    rw [trace_of_some hroot, trace_of_some hlarger]
    exact @Task.trace_grows_inSet _ _ h depth ⟨set.env data, name, root⟩ rfl

/-- **A sink keeps what it has got** where a run goes on in a larger set, and gets the same if it
does not. -/
theorem Env.execute_inSet (depth : Nat) (data : Value) (name : String) (sink : Sink) :
    (larger.env data).execute depth name sink = (set.env data).execute depth name sink ∨
      ∃ halt after more, (set.env data).execute depth name sink = .error halt after ∧
        halt.IsMissing ∧
        ((larger.env data).execute depth name).after sink
          = { after with held := after.held ++ more } := by
  rw [execute_eq_replay, execute_eq_replay]
  exact (trace_grows_inSet h depth data name).replay sink

end Extension

/-- **A run that ends on a sink**: it does not stop for its depth. On another sink it may be too
deep, if this one refuses a text before that. -/
def Run.EndsOn (run : Run Unit) (sink : Sink) : Prop :=
  ∀ after, run sink ≠ .error .tooDeep after

/-- A run that ends on a sink does the same to it with a greater depth. -/
theorem Env.execute_eq_of_le {env : Env} {name : String} {sink : Sink} {depth more : Nat}
    (h : (env.execute depth name).EndsOn sink) (hle : depth ≤ more) :
    env.execute more name sink = env.execute depth name sink := by
  have hgrows := (env.trace_grows_of_le name hle).replay sink
  rw [← execute_eq_replay, ← execute_eq_replay] at hgrows
  rcases hgrows with hsame | ⟨_, after, _, hdeep, rfl, -⟩
  · exact hsame
  · exact absurd hdeep (h after)

/-- **Extending a set never changes a settled run.** If a run ends, and not because a function or
template is missing, it does the same in every larger set: it ends there, at that depth and wherever
it ends at another, with the same result and with the same output. If it ends because something is
missing, then wherever it ends in a larger set it has written what it had written before, and
perhaps more. -/
theorem extension_keeps_settled_runs {set larger : TemplateSet} (h : set.IsPartOf larger)
    {data : Value} {name : String} {sink : Sink} {depth : Nat}
    (hends : ((set.env data).execute depth name).EndsOn sink) :
    ((∀ e after, (set.env data).execute depth name sink = .error (.failed e) after →
        e.isMissing = false) →
      (larger.env data).execute depth name sink = (set.env data).execute depth name sink ∧
        ∀ other, ((larger.env data).execute other name).EndsOn sink →
          (larger.env data).execute other name sink = (set.env data).execute depth name sink) ∧
    ∀ e after, (set.env data).execute depth name sink = .error (.failed e) after →
      e.isMissing = true →
      ∀ other, ((larger.env data).execute other name).EndsOn sink →
        ∃ more, ((larger.env data).execute other name).after sink
          = { after with held := after.held ++ more } := by
  refine ⟨fun hsettled => ?_, fun e after hafter _ other hother => ?_⟩
  · have hsame : (larger.env data).execute depth name sink
        = (set.env data).execute depth name sink := by
      rcases Env.execute_inSet h depth data name sink with
        hsame | ⟨_, after, _, hafter, hmissing, -⟩
      · exact hsame
      · obtain ⟨e, rfl, he⟩ := hmissing
        rw [hsettled e after hafter] at he
        cases he
    refine ⟨hsame, fun other hother => ?_⟩
    -- both depths may be raised to the greater of them
    have hlarger : ((larger.env data).execute depth name).EndsOn sink := by
      intro after
      rw [hsame]
      exact hends after
    rw [← hsame, ← Env.execute_eq_of_le hother (Nat.le_max_left other depth),
      ← Env.execute_eq_of_le hlarger (Nat.le_max_right other depth)]
  -- something was missing: both runs at the greater depth, where one goes on from the other
  · have hset := Env.execute_eq_of_le hends (Nat.le_max_right other depth)
    have hlarger := Env.execute_eq_of_le hother (Nat.le_max_left other depth)
    have hsink : ((larger.env data).execute other name).after sink
        = ((larger.env data).execute (max other depth) name).after sink := by
      rw [Run.after, Run.after, hlarger]
    rw [hsink]
    rcases Env.execute_inSet h (max other depth) data name sink with
      hsame | ⟨halt, after', more, hafter', -, hmore⟩
    · refine ⟨"", ?_⟩
      rw [Run.after, hsame, hset, hafter, String.append_empty]
    · rw [hset, hafter] at hafter'
      cases hafter'
      exact ⟨more, hmore⟩

/-- A page that includes what is not there has written its first line; once the template is there,
the run goes on from that line. -/
theorem page_goes_on_in_larger_set :
    let page := Node.list ⟨"t", 1⟩ [.text ⟨"t", 1⟩ "Top",
      .inclusion ⟨"t", 2⟩ (.literal ⟨"t", 2⟩ "foot") none]
    let set := TemplateSet.setTemplate ∅ "page" page
    let larger := set.setTemplate "foot" (.text ⟨"t", 3⟩ "Foot")
    set.IsPartOf larger ∧ ((set.env .null).execute 2 "page").EndsOn Sink.empty ∧
      (set.env .null).execute 2 "page" Sink.empty
        = .error (.failed (.unknownTemplate ⟨"t", 2⟩ "foot")) ⟨"Top", none⟩ ∧
      ((larger.env .null).execute 3 "page").EndsOn Sink.empty ∧
      ∃ more, ((larger.env .null).execute 3 "page").after Sink.empty = ⟨"Top" ++ more, none⟩ := by
  intro page set larger
  have hpart : set.IsPartOf larger := .setTemplate (by decide) _
  have hrun : (set.env .null).execute 2 "page" Sink.empty
      = .error (.failed (.unknownTemplate ⟨"t", 2⟩ "foot")) ⟨"Top", none⟩ := by rfl
  have hends : ((set.env .null).execute 2 "page").EndsOn Sink.empty := by
    intro after
    rw [hrun]
    exact nofun
  have hlarger : ((larger.env .null).execute 3 "page").EndsOn Sink.empty := by
    intro after
    have hrun : (larger.env .null).execute 3 "page" Sink.empty = .ok () ⟨"TopFoot", none⟩ := by rfl
    rw [hrun]
    exact nofun
  exact ⟨hpart, hends, hrun, hlarger,
    (extension_keeps_settled_runs hpart hends).2 _ _ hrun rfl 3 hlarger⟩

end Stencil
