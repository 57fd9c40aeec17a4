import Stencil.Proofs.Run.Growth

/-!
# What a run writes

A run that ends writes certain texts, one after the other, and then ends or fails in a certain way.
Neither depends on where it writes, nor on the depth it is given (`Run.Writes`,
`runs_only_append`). A sink decides only how many of the texts it takes: the first that it does not
take is the end of the run.
-/

namespace Stencil

/-! ### Depth

A run that does not stop for its depth cannot grow any more, so at every greater depth it is the
same. Of two depths at which it ends one is the greater, and hence it has one trace only. -/

namespace Trace

/-- **A run that ends**: it does not stop for its depth. -/
def Ends (trace : Trace) : Prop :=
  trace.halt? ≠ some .tooDeep

end Trace

/-- **A run that ends does not depend on its depth**: at any greater one it comes to the same
statements and ends in the same way. -/
theorem Task.trace_eq_of_le {depth more : Nat} {task : Task} (h : (task.trace depth).Ends)
    (hle : depth ≤ more) : task.trace more = task.trace depth := by
  refine (task.trace_grows_of_le hle).eq_of_not ?_
  rintro halt hhalt rfl
  exact h hhalt

/-- Neither does that of a template. -/
theorem Env.trace_eq_of_le {depth more : Nat} {env : Env} {name : String}
    (h : (env.trace depth name).Ends) (hle : depth ≤ more) :
    env.trace more name = env.trace depth name := by
  refine (env.trace_grows_of_le name hle).eq_of_not ?_
  rintro halt hhalt rfl
  exact h hhalt

/-! ### Sinks

A sink takes texts as long as they fit and refuses a text as a whole, and a smaller one behind it
might fit again: but by then the run has failed. So a run that writes given texts has one of two
ends, decided by the first text that does not fit (`Leads`), and the induction goes along the trace
with the sink growing under it. -/

namespace Sink

/-- The sink when it has taken some texts. -/
def grown (sink : Sink) (texts : List String) : Sink :=
  { sink with held := sink.held ++ String.join texts }

/-- **A sink takes all of some texts**, one after the other. It may take an empty text where it
takes no other. -/
def TakesAll (sink : Sink) : List String → Prop
  | [] => True
  | text :: texts => sink.takes text = true ∧ (sink.grown [text]).TakesAll texts

@[simp] theorem grown_nil (sink : Sink) : sink.grown [] = sink := by
  rw [grown, String.join_nil, String.append_empty]

theorem grown_cons (sink : Sink) (text : String) (texts : List String) :
    sink.grown (text :: texts) = (sink.grown [text]).grown texts := by
  simp only [grown, String.join_cons, String.join_nil, String.append_empty, String.append_assoc]

end Sink

namespace Run

theorem put_of_takes {sink : Sink} {text : String} (h : sink.takes text = true) :
    put text sink = .ok () (sink.grown [text]) := by
  rw [put_eq, if_pos h, Sink.grown, String.join_cons, String.join_nil, String.append_empty]

theorem put_of_not_takes {sink : Sink} {text : String} (h : sink.takes text = false) :
    put text sink = .error (.failed .write) sink := by
  rw [put_eq, h]
  rfl

/-- **What a sink makes of texts and an end.** If it takes them all, it holds them and the run ends
as it should. Otherwise it holds those before the first that it does not take, and the run fails
there. -/
def Leads (run : Run Unit) (texts : List String) (halt? : Option Halt) (sink : Sink) : Prop :=
  (sink.TakesAll texts ∧ run sink = ending halt? (sink.grown texts)) ∨
    ∃ before text after, texts = before ++ text :: after ∧ sink.TakesAll before ∧
      (sink.grown before).takes text = false ∧
        run sink = .error (.failed .write) (sink.grown before)

/-- **A run that writes texts and then ends**, or fails with an error, whatever it writes to. Texts
are writes, so one text in two writes is something else. -/
def Writes (run : Run Unit) (texts : List String) (failure? : Option RunError) : Prop :=
  ∀ sink, run.Leads texts (failure?.map .failed) sink

/-- **A run that ends**: on a sink that takes everything, it does not stop for its depth. -/
def Ends (run : Run Unit) : Prop :=
  ∀ sink, run Sink.empty ≠ .error .tooDeep sink

/-- One more text, before all others. -/
theorem Leads.put_bind {run : Run Unit} {texts : List String} {halt? : Option Halt} {sink : Sink}
    {text : String} (h : sink.takes text = true → run.Leads texts halt? (sink.grown [text])) :
    Leads (put text >>= fun _ => run) (text :: texts) halt? sink := by
  cases htakes : sink.takes text with
  -- the first text is refused, and nothing was written before it
  | false =>
    refine .inr ⟨[], text, texts, rfl, trivial, by rwa [Sink.grown_nil], ?_⟩
    simp only [bind, EStateM.bind, put_of_not_takes htakes, Sink.grown_nil]
  | true =>
    have hrun : (put text >>= fun _ => run) sink = run (sink.grown [text]) := by
      simp only [bind, EStateM.bind, put_of_takes htakes]
    -- all are taken, or one behind this one is refused
    rcases h htakes with ⟨hall, hend⟩ | ⟨before, refused, after, rfl, hbefore, hrefused, hend⟩
    · exact .inl ⟨⟨htakes, hall⟩, by rw [hrun, hend, ← Sink.grown_cons]⟩
    · refine .inr ⟨text :: before, refused, after, rfl, ⟨htakes, hbefore⟩, ?_, ?_⟩
      · rwa [Sink.grown_cons]
      · rw [hrun, hend, ← Sink.grown_cons]

end Run

/-- **What a sink makes of a trace** is what it makes of its outputs and its end. The events decide
nothing else. -/
theorem Trace.replay_leads (trace : Trace) (sink : Sink) :
    trace.replay.Leads trace.outputs trace.halt? sink := by
  induction trace using Trace.induction generalizing sink with
  | ending halt? =>
    refine .inl ⟨trivial, ?_⟩
    rw [outputs, ending, List.filterMap_nil, Sink.grown_nil]
    rfl
  | cons event trace ih =>
    rw [outputs_cons, replay_cons]
    cases event.action.output? with
    | none => exact ih sink
    | some text => exact Run.Leads.put_bind fun _ => ih (sink.grown [text])

/-- **A run stops as its trace does**, unless the sink does not take what it writes. Errors other
than those of the sink can so be looked for in the trace. -/
theorem Env.halt?_of_execute {env : Env} {depth : Nat} {name : String} {sink after : Sink}
    {halt : Halt} (h : env.execute depth name sink = .error halt after)
    (hwrite : halt ≠ .failed .write) : (env.trace depth name).halt? = some halt := by
  rw [execute_eq_replay] at h
  rcases (env.trace depth name).replay_leads sink with ⟨-, hends⟩ | ⟨_, _, _, -, -, -, hrefused⟩
  · rw [hends] at h
    cases hhalt : (env.trace depth name).halt? with
    | none =>
      rw [hhalt] at h
      cases h
    | some halt =>
      rw [hhalt] at h
      cases h
      rfl
  · rw [hrefused] at h
    cases h
    exact absurd rfl hwrite

/-- A trace ends if its replay does. On a sink without a limit nothing else can stop it, so this is
seen there. -/
theorem Trace.ends_of_replay {trace : Trace} (h : trace.replay.Ends) : trace.Ends := by
  intro hhalt
  have hreplay := trace.replay_unlimited ""
  rw [hhalt] at hreplay
  exact h _ hreplay

/-! ### All depths

The texts and the end belong to the template and its data. They are taken from any depth at which
the run ends; where there is none, nothing is claimed of them. Even then something holds at each
depth: what a sink gets is the beginning of what the sink without a limit gets. -/

/-- **Runs that only append**, one for every depth: what they write is the same for all sinks, and
no sink loses anything to them. -/
structure Run.OnlyAppend (runs : Nat → Run Unit) : Prop where
  /-- those that end write the same texts and end in the same way -/
  writes : ∃ texts failure?, ∀ depth, (runs depth).Ends → (runs depth).Writes texts failure?
  /-- what was held stays, and the beginning of what a sink without limit gets is added -/
  begins : ∀ depth sink, ∃ written : String,
    (runs depth).after sink = { sink with held := sink.held ++ written } ∧
      written.toList <+: ((runs depth).after Sink.empty).held.toList

/-- A run that ends and fails has an error. -/
theorem Trace.Ends.exists_failure {trace : Trace} (h : trace.Ends) :
    ∃ failure? : Option RunError, trace.halt? = failure?.map .failed := by
  rw [Ends] at h
  cases hhalt : trace.halt? with
  | none => exact ⟨none, rfl⟩
  | some halt =>
    cases halt with
    | failed e => exact ⟨some e, rfl⟩
    | tooDeep => exact absurd hhalt h

/-- The replays of traces only append, if the traces that end are the same at all greater depths. -/
theorem Trace.onlyAppend {traces : Nat → Trace}
    (h : ∀ depth more, (traces depth).Ends → depth ≤ more → traces more = traces depth) :
    Run.OnlyAppend fun depth => (traces depth).replay where
  writes := by
    by_cases hends : ∃ depth, (traces depth).Ends
    · obtain ⟨depth, hdepth⟩ := hends
      obtain ⟨failure?, hfailure⟩ := hdepth.exists_failure
      refine ⟨(traces depth).outputs, failure?, fun other hother sink => ?_⟩
      -- of two depths at which the run ends, the greater one changes nothing
      have hsame : traces other = traces depth := by
        rcases Nat.le_total depth other with hle | hle
        · exact h depth other hdepth hle
        · exact (h other depth (ends_of_replay hother) hle).symm
      rw [← hfailure, hsame]
      exact (traces depth).replay_leads sink
    · exact ⟨[], none, fun depth hdepth => absurd ⟨depth, ends_of_replay hdepth⟩ hends⟩
  begins depth sink := by
    -- a sink gets some of the writes, from the first on, and an unlimited one gets all
    obtain ⟨written, hwritten, hsink⟩ := (traces depth).exists_prefix_of_replay sink
    refine ⟨String.join written, hsink, ?_⟩
    have hwhole : ((traces depth).replay.after Sink.empty).held
        = String.join (traces depth).outputs := by
      rw [Run.after, Sink.empty, replay_unlimited, String.empty_append]
      cases (traces depth).halt? <;> rfl
    obtain ⟨more, hmore⟩ := hwritten
    rw [hwhole, ← hmore, String.join_append, String.toList_append]
    exact List.prefix_append _ _

/-- **Runs only append, whatever they write to.** For every set and data, and every statement or
template, there are texts and an end that neither the sink nor the depth decides: a run that ends
writes those texts one after the other, up to the first that the sink does not take, and fails
there; if the sink takes them all, the run ends in that way. What any sink holds after any run is
what it held before and the beginning of what the sink without a limit gets. -/
theorem runs_only_append (env : Env) :
    (∀ node, Run.OnlyAppend fun depth => env.run depth node) ∧
      ∀ name, Run.OnlyAppend fun depth => env.execute depth name := by
  refine ⟨fun node => ?_, fun name => ?_⟩
  · have hrun : (fun depth => env.run depth node)
        = fun depth => (Task.trace depth ⟨env, "", node⟩).replay :=
      funext fun depth => Task.run_eq_replay depth ⟨env, "", node⟩
    rw [hrun]
    exact Trace.onlyAppend fun _ _ => Task.trace_eq_of_le
  · rw [funext fun depth => env.execute_eq_replay depth name]
    exact Trace.onlyAppend fun _ _ => Env.trace_eq_of_le

end Stencil
