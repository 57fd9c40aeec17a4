import Stencil.Node.Transform
import Stencil.Run.Error
import Stencil.TemplateSet.Basic
import Stencil.Text.Html

/-!
# Escaping

Changes a template of a set so that every value it interpolates goes through a function first.
Conditions, arguments and the names and data of inclusions are left alone: only what is put into the
output is escaped. Escaping twice escapes twice.
-/

namespace Stencil

/-- What escaping makes of a node: the expression of an interpolation becomes the argument of a
call, which stands where the interpolation does. Expressions are not looked into. -/
def Node.escapeVisit (function : String) (node : Node) : Verdict :=
  match node with
  | .interpolation loc expr => .replace (.interpolation loc (.call loc function [expr]))
  | node => if node.isExpression then .keep else .descend

/-- **A tree whose interpolations go through a function.** Interpolations in the bodies of blocks
are among them; a template that is included is another tree, and stays as it is. -/
def Node.escapeThrough (function : String) (node : Node) : Node :=
  Id.run (node.transform fun node => return node.escapeVisit function)

namespace Node

variable (function : String)

/-- Rows of trees are escaped tree by tree. -/
theorem transformList_escapeVisit (nodes : List Node) :
    Id.run (transformList (fun node => return node.escapeVisit function) nodes)
      = nodes.map (escapeThrough function) :=
  transformList_pure (escapeVisit function) nodes

theorem transformOption_escapeVisit (node? : Option Node) :
    Id.run (transformOption (fun node => return node.escapeVisit function) node?)
      = node?.map (escapeThrough function) :=
  transformOption_pure (escapeVisit function) node?

theorem escapeThrough_text (loc : Location) (content : String) :
    (text loc content).escapeThrough function = text loc content := rfl

/-- The expression of an interpolation becomes the argument of a call. -/
theorem escapeThrough_interpolation (loc : Location) (expr : Node) :
    (interpolation loc expr).escapeThrough function
      = interpolation loc (call loc function [expr]) := rfl

/-- Expressions stay as they are. -/
theorem escapeThrough_of_isExpression {expr : Node} (h : expr.isExpression = true) :
    expr.escapeThrough function = expr := by
  cases expr <;> first | rfl | cases h

theorem map_escapeThrough_of_isExpression {expr? : Option Node}
    (h : ∀ expr ∈ expr?, expr.isExpression = true) :
    expr?.map (escapeThrough function) = expr? := by
  cases expr? with
  | none => rfl
  | some expr => exact congrArg some (escapeThrough_of_isExpression function (h expr rfl))

theorem escapeThrough_inclusion (loc : Location) (name : Node) (data : Option Node) :
    (inclusion loc name data).escapeThrough function
      = inclusion loc (name.escapeThrough function) (data.map (escapeThrough function)) := by
  rw [← transformOption_escapeVisit]
  rfl

theorem escapeThrough_block (loc : Location) (kind : BlockKind) (expr body : Node)
    (orElse : Option Node) :
    (block loc kind expr body orElse).escapeThrough function
      = block loc kind (expr.escapeThrough function) (body.escapeThrough function)
          (orElse.map (escapeThrough function)) := by
  rw [← transformOption_escapeVisit]
  rfl

theorem escapeThrough_list (loc : Location) (items : List Node) :
    (list loc items).escapeThrough function = list loc (items.map (escapeThrough function)) := by
  rw [← transformList_escapeVisit]
  rfl

theorem loc_escapeThrough (node : Node) : (node.escapeThrough function).loc = node.loc := by
  cases node <;> rfl

end Node

namespace TemplateSet

/-- **Escapes a template** through a function, which is registered under its name. A function that
was there before under that name is replaced, also for the calls that other templates make. -/
def escapeWith (set : TemplateSet) (template name : String) (function : HostFunction) :
    Except RunError TemplateSet :=
  match set.template? template with
  | none => .error (.missingTemplate template)
  | some root =>
    .ok ((set.register name function).setTemplate template (root.escapeThrough name))

section EscapeWith

variable {set escaped : TemplateSet} {template name : String} {function : HostFunction}

/-- Only a template that is missing cannot be escaped. -/
theorem exists_escapeWith (h : template ∈ set.names) (name : String) (function : HostFunction) :
    ∃ escaped, set.escapeWith template name function = .ok escaped := by
  obtain ⟨root, hroot⟩ := mem_names_iff.1 h
  exact ⟨_, by rw [escapeWith, hroot]⟩

/-- The trees of an escaped set: the one that was escaped, and all others as they were. -/
theorem template?_escapeWith (h : set.escapeWith template name function = .ok escaped)
    (other : String) :
    escaped.template? other
      = (set.template? other).map fun root =>
          if other = template then root.escapeThrough name else root := by
  rw [escapeWith] at h
  cases hroot : set.template? template with
  | none =>
    rw [hroot] at h
    cases h
  | some root =>
    rw [hroot] at h
    cases h
    rw [template?_setTemplate]
    split
    · next heq => rw [heq, hroot, Option.map_some]
    · exact Option.map_id'.symm

/-- The functions of an escaped set: the one it is escaped through, and all others as they were. -/
theorem find?_functions_escapeWith (h : set.escapeWith template name function = .ok escaped)
    (other : String) :
    escaped.functions.find? other
      = if other = name then some function else set.functions.find? other := by
  rw [escapeWith] at h
  cases hroot : set.template? template with
  | none =>
    rw [hroot] at h
    cases h
  | some root =>
    rw [hroot] at h
    cases h
    exact set.functions.find?_register name other function

end EscapeWith

/-! ### In place

The set at hand is the state of a computation, and each of the three steps changes it or leaves it.
Only the first step can fail, and it changes nothing, so a failure leaves the set as it was. That
the second step keeps the tree that the first one found is what makes the three together one step
(`escapeInPlace_eq`). -/

/-- Puts a tree in the place of the one under a name, and hands that one out; where there is none,
none is put. -/
def replaceTemplate (set : TemplateSet) (name : String) (root : Node) :
    Option Node × TemplateSet :=
  match set.template? name with
  | some old => (some old, set.setTemplate name root)
  | none => (none, set)

/-- Looks up a template of the set at hand. -/
def lookUp (name : String) : EStateM RunError TemplateSet Node := fun set =>
  match set.template? name with
  | none => .error (.missingTemplate name) set
  | some root => .ok root set

/-- **Escapes a template of the set at hand**: looks it up, registers the function, and then
replaces the tree. -/
def escapeInPlace (template name : String) (function : HostFunction) :
    EStateM RunError TemplateSet Unit := do
  let root ← lookUp template
  modify fun set => set.register name function
  modify fun set => (set.replaceTemplate template (root.escapeThrough name)).2

/-- **In place the set becomes the escaped one**, or stays as it is. So what is proved of
`escapeWith` holds of a set that is changed in place. -/
theorem escapeInPlace_eq (set : TemplateSet) (template name : String) (function : HostFunction) :
    escapeInPlace template name function set
      = match set.escapeWith template name function with
        | .ok escaped => .ok () escaped
        | .error e => .error e set := by
  rw [escapeWith, escapeInPlace]
  cases hroot : set.template? template with
  | none =>
    have hfails : lookUp template set = .error (.missingTemplate template) set := by
      rw [lookUp, hroot]
    simp only [bind, EStateM.bind, hfails]
  | some root =>
    have hfinds : lookUp template set = .ok root set := by rw [lookUp, hroot]
    have hkept : (set.register name function).template? template = some root := hroot
    have hreplaced : ((set.register name function).replaceTemplate template
        (root.escapeThrough name)).2
        = (set.register name function).setTemplate template (root.escapeThrough name) := by
      rw [replaceTemplate, hkept]
    simp only [bind, EStateM.bind, hfinds]
    exact congrArg (EStateM.Result.ok ()) hreplaced

end TemplateSet

/-- **The function that escapes for HTML**: the output text of its one argument, with null left
as it is. -/
def htmlEscaper : HostFunction
  | [value] =>
    match value.output? with
    | none => .ok .null
    | some text => .ok (.string (String.ofList (Text.Html.escape text.toList)))
  | args => .error ("expected 1 argument, got " ++ Nat.repr args.length)

/-- The name under which the function that escapes for HTML is registered. -/
def htmlEscaperName : String := "html"

/-- **Makes a template safe for HTML**: escapes it through the function that replaces special
characters, under its usual name. -/
def TemplateSet.escape (set : TemplateSet) (template : String) : Except RunError TemplateSet :=
  set.escapeWith template htmlEscaperName htmlEscaper

end Stencil
