import Stencil.Run.Error
import Stencil.TemplateSet.Basic

/-!
# Values of expressions

What an expression computes from the data and the functions of a set. Properties are followed one
by one; an absent property is null, and so is everything beyond null. The function of a call is
looked up before its arguments are computed, first to last.
-/

namespace Stencil

/-- **What a template runs in**: the set it belongs to and the data it sees. Blocks and inclusions
change the data for what is inside them; the set stays the same during a run. -/
structure Env where
  /-- the templates and functions -/
  set : TemplateSet
  /-- the current data -/
  data : Value

/-- The same set with other data. -/
def Env.withData (env : Env) (data : Value) : Env :=
  { env with data }

/-- The environment of a set with some data. -/
def TemplateSet.env (set : TemplateSet) (data : Value) : Env :=
  ⟨set, data⟩

/-- The field of an object, null if it has none of that name. So a reference never fails for a field
that is missing. -/
def fieldOrNull (fields : List (String × Value)) (name : String) : Value :=
  (fields.lookup name).getD .null

/-- **Follows a path** of properties from a value. An object without the property, and null, have
null there; every other value fails at the first property that is asked of it. -/
def follow (loc : Location) : List String → Value → Except RunError Value
  | [], value => .ok value
  | _ :: _, .null => .ok .null
  | property :: path, .object fields => follow loc path (fieldOrNull fields property)
  | property :: _, value => .error (.notAMapping loc property value)

/-- Calls a function, and blames the call if it fails. -/
def applyFunction (loc : Location) (name : String) (function : HostFunction)
    (args : List Value) : Except RunError Value :=
  (function args).mapError (.functionFailed loc name)

section ApplyFunction

variable {loc : Location} {name : String} {function : HostFunction} {args : List Value}

theorem applyFunction_eq_ok {value : Value} :
    applyFunction loc name function args = .ok value ↔ function args = .ok value := by
  rw [applyFunction]
  cases function args with
  | error reason =>
    constructor <;>
    · intro h
      cases h
  | ok found =>
    constructor <;>
    · intro h
      cases h
      rfl

theorem applyFunction_eq_error {e : RunError} :
    applyFunction loc name function args = .error e ↔
      ∃ reason, function args = .error reason ∧ e = .functionFailed loc name reason := by
  rw [applyFunction]
  cases function args with
  | error reason =>
    constructor
    · intro h
      cases h
      exact ⟨reason, rfl, rfl⟩
    · rintro ⟨_, hreason, rfl⟩
      cases hreason
      rfl
  | ok found =>
    constructor
    · intro h
      cases h
    · rintro ⟨_, hreason, -⟩
      cases hreason

end ApplyFunction

mutual

/-- **The value of an expression.** The function of a call is looked for before its arguments are
computed, so a missing function is what is reported even if an argument fails as well. -/
def evaluate (env : Env) : Node → Except RunError Value
  | .literal _ value => .ok (.string value)
  | .reference loc path => follow loc path env.data
  | .call loc name args =>
    match env.set.functions.find? name with
    | none => .error (.unknownFunction loc name)
    | some function =>
      match evaluateAll env args with
      | .error e => .error e
      | .ok values => applyFunction loc name function values
  | node => .error (.notAnExpression node.loc)

/-- The values of a row of expressions, first to last. The first that fails is the end of it, and
those behind it are not evaluated. -/
def evaluateAll (env : Env) : List Node → Except RunError (List Value)
  | [] => .ok []
  | node :: nodes =>
    match evaluate env node with
    | .error e => .error e
    | .ok value =>
      match evaluateAll env nodes with
      | .error e => .error e
      | .ok values => .ok (value :: values)

end

section Equations

variable {env : Env} {loc : Location} {name : String} {args : List Node}

/-- A call of a function that is not registered fails, whatever its arguments. -/
theorem evaluate_call_of_none (h : env.set.functions.find? name = none) :
    evaluate env (.call loc name args) = .error (.unknownFunction loc name) := by
  rw [evaluate, h]

/-- Any other call computes its arguments first, and then is what its function makes of their
values. -/
theorem evaluate_call_of_some {function : HostFunction}
    (h : env.set.functions.find? name = some function) :
    evaluate env (.call loc name args)
      = (evaluateAll env args).bind (applyFunction loc name function) := by
  rw [evaluate, h]
  cases evaluateAll env args <;> rfl

theorem evaluateAll_cons (env : Env) (node : Node) (nodes : List Node) :
    evaluateAll env (node :: nodes)
      = (evaluate env node).bind fun value => (evaluateAll env nodes).map (value :: ·) := by
  rw [evaluateAll]
  cases evaluate env node with
  | error e => rfl
  | ok value => cases evaluateAll env nodes <;> rfl

end Equations

/-- A call has the value that its function has on the values of its arguments. -/
theorem evaluate_call_eq_ok {env : Env} {loc : Location} {name : String} {args : List Node}
    {value : Value} :
    evaluate env (.call loc name args) = .ok value ↔
      ∃ function values, env.set.functions.find? name = some function ∧
        evaluateAll env args = .ok values ∧ function values = .ok value := by
  rw [evaluate]
  cases env.set.functions.find? name with
  | none => simp
  | some function =>
    cases evaluateAll env args with
    | error e => simp
    | ok values => simp [applyFunction_eq_ok]

end Stencil
