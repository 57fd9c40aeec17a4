import Stencil.Proofs.Run.Trace

/-!
# Runs that go on

A run that stops for a reason of some kind may go on where the reason is gone: with a greater depth,
or in a set that has what was missing. What it has come to by then stays (`Trace.Grows`), and so
does what a sink has got from it (`Trace.Grows.replay`). A run that ends, or stops for another
reason, stays as it is.
-/

namespace Stencil

namespace Trace

/-- **A trace grows into another**: they are the same, or the first stops for a reason of a kind and
its events are the first ones of the other. What the other one does behind them, and how it ends, is
left open. -/
def Grows (P : Halt → Prop) (trace other : Trace) : Prop :=
  other = trace ∨ ∃ halt, trace.halt? = some halt ∧ P halt ∧ trace.events <+: other.events

namespace Grows

variable {P : Halt → Prop} {first second first' second' : Trace}

theorem refl (trace : Trace) : trace.Grows P trace := .inl rfl

/-- A run that stops at once may become any. -/
theorem ending {halt : Halt} (h : P halt) (other : Trace) :
    (Trace.ending (some halt)).Grows P other :=
  .inr ⟨halt, rfl, h, List.nil_prefix⟩

theorem cons (event : Event) (h : first.Grows P first') :
    (first.cons event).Grows P (first'.cons event) := by
  rcases h with rfl | ⟨halt, hhalt, hkind, hevents⟩
  · exact refl _
  · exact .inr ⟨halt, hhalt, hkind, List.cons_prefix_cons.2 ⟨rfl, hevents⟩⟩

/-- Of two runs in a row each may go on. -/
theorem append (h : first.Grows P first') (h' : second.Grows P second') :
    (first.append second).Grows P (first'.append second') := by
  rcases h with rfl | ⟨halt, hhalt, hkind, hevents⟩
  · cases hfirst : first'.halt? with
    | some halt =>
      -- the second run does not begin
      simp only [Grows, Trace.append, hfirst, true_or]
    | none =>
      rcases h' with rfl | ⟨halt, hhalt, hkind, hevents⟩
      · exact refl _
      · simp only [Grows, Trace.append, hfirst]
        exact .inr ⟨halt, hhalt, hkind, (List.prefix_append_right_inj _).2 hevents⟩
  -- the first stops, so the second of the smaller pair does not begin
  · have hstops : first.append second = first := by simp only [Trace.append, hhalt]
    have hmore : first'.events <+: (first'.append second').events := by
      rw [Trace.append]
      split
      · exact List.prefix_append _ _
      · exact List.prefix_rfl
    rw [hstops]
    exact .inr ⟨halt, hhalt, hkind, hevents.trans hmore⟩

/-- Of runs in a row each may go on. -/
theorem concat {α : Type} {items : List α} {f g : α → Trace}
    (h : ∀ item ∈ items, (f item).Grows P (g item)) :
    (Trace.concat (items.map f)).Grows P (Trace.concat (items.map g)) := by
  induction items with
  | nil => exact refl _
  -- an item that goes on where it stopped is followed by those behind it, which had not begun
  | cons item items ih =>
    obtain ⟨hitem, hitems⟩ := List.forall_mem_cons.1 h
    exact hitem.append (ih hitems)

/-- A trace that does not stop for such a reason stays as it is. -/
theorem eq_of_not {trace other : Trace} (h : trace.Grows P other)
    (hnot : ∀ halt, trace.halt? = some halt → ¬ P halt) : other = trace := by
  rcases h with rfl | ⟨halt, hhalt, hkind, -⟩
  · rfl
  · exact absurd hkind (hnot halt hhalt)

/-- **What a sink has got stays**: the greater run leaves it in the same way, or the smaller one
stops for such a reason and the greater one has only added to the sink. If the sink refuses a text
before that, both fail there. -/
theorem replay {trace other : Trace} (h : trace.Grows P other) (sink : Sink) :
    other.replay sink = trace.replay sink ∨
      ∃ halt after more, trace.replay sink = .error halt after ∧ P halt ∧
        other.replay.after sink = { after with held := after.held ++ more } := by
  rcases h with rfl | ⟨halt, hhalt, hkind, more, hmore⟩
  · exact .inl rfl
  obtain ⟨events, halt?⟩ := trace
  obtain ⟨events', halt?'⟩ := other
  obtain rfl : halt? = some halt := hhalt
  obtain rfl : events ++ more = events' := hmore
  -- both do first what the smaller one does before it stops
  have hsmaller : (⟨events, some halt⟩ : Trace)
      = (⟨events, none⟩ : Trace).append (Trace.ending (some halt)) := by
    simp [Trace.append, Trace.ending]
  have hgreater : (⟨events ++ more, halt?'⟩ : Trace)
      = (⟨events, none⟩ : Trace).append ⟨more, halt?'⟩ := rfl
  rw [hsmaller, hgreater, replay_append, replay_append]
  cases hfirst : (⟨events, none⟩ : Trace).replay sink with
  | error e after =>
    left
    simp only [bind, EStateM.bind, hfirst]
  | ok _ after =>
    right
    obtain ⟨written, -, hwritten⟩ := exists_prefix_of_replay ⟨more, halt?'⟩ after
    refine ⟨halt, after, String.join written, ?_, hkind, ?_⟩
    · simp only [bind, EStateM.bind, hfirst]
      rfl
    · rw [Run.after_bind_of_ok hfirst]
      exact hwritten

end Grows

end Trace

/-! ### Depth

The first statement that is too deep stops the whole run, so the events at the smaller depth are the
first ones at the greater. The induction is on the smaller depth, for all greater ones at once, as
every statement hands the same depth to all that it leaves. -/

/-- **With a greater depth a run goes on** where it was too deep, and does the same until then. -/
theorem Task.trace_grows_of_le {depth more : Nat} (task : Task) (hle : depth ≤ more) :
    (task.trace depth).Grows (· = .tooDeep) (task.trace more) := by
  induction depth generalizing more task with
  | zero => exact Trace.Grows.ending (P := (· = .tooDeep)) rfl _
  | succ depth ih =>
    obtain ⟨more, rfl⟩ := Nat.exists_eq_succ_of_ne_zero (Nat.ne_zero_of_lt hle)
    rw [trace, trace]
    cases task.step with
    | error e => exact .refl _
    | ok step =>
      refine .cons _ (.concat fun other _ => ?_)
      exact ih other (Nat.le_of_succ_le_succ hle)

/-- So does the run of a template. -/
theorem Env.trace_grows_of_le {depth more : Nat} (env : Env) (name : String) (hle : depth ≤ more) :
    (env.trace depth name).Grows (· = .tooDeep) (env.trace more name) := by
  unfold trace
  split
  · exact Task.trace_grows_of_le _ hle
  · exact .refl _

end Stencil
