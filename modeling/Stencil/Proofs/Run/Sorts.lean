import Stencil.Proofs.Printing.RoundTrip
import Stencil.Proofs.Run.Trace
import Stencil.TemplateSet.Escaping

/-!
# Sorts

A tree is well-sorted if statements stand where statements belong, and terms, which are expressions
all the way down, where expressions belong. Trees that were read are
(`TemplateSet.isSorted_of_ofSource`), and neither functions nor escapes change that
(`TemplateSet.IsSorted.change`). A well-sorted statement fails for the data it meets, the functions
it calls or a name that it computes, and the error says where (`Task.isOrdinary_of_step`); so does a
run of any length, through any templates.
-/

namespace Stencil

namespace Node

mutual

/-- **A term**: an expression all the way down. An expression may have a statement among the
arguments of a call; a term has not. -/
def isTerm : Node → Bool
  | .reference .. | .literal .. => true
  | .call _ _ args => areTerms args
  | _ => false

/-- Terms in a row. -/
def areTerms : List Node → Bool
  | [] => true
  | node :: nodes => node.isTerm && areTerms nodes

end

mutual

/-- **A well-sorted statement**: terms where expressions belong, and well-sorted statements where
statements do. No expression is well-sorted, as this is about what can be run. -/
def isSorted : Node → Bool
  | .text .. => true
  | .interpolation _ expr => expr.isTerm
  | .inclusion _ name none => name.isTerm
  | .inclusion _ name (some data) => name.isTerm && data.isTerm
  | .block _ _ expr body none => expr.isTerm && body.isSorted
  | .block _ _ expr body (some orElse) => expr.isTerm && (body.isSorted && orElse.isSorted)
  | .list _ items => areSorted items
  | .reference .. | .call .. | .literal .. => false

/-- Well-sorted statements in a row. -/
def areSorted : List Node → Bool
  | [] => true
  | node :: nodes => node.isSorted && areSorted nodes

end

theorem areSorted_iff {nodes : List Node} :
    areSorted nodes = true ↔ ∀ node ∈ nodes, node.isSorted = true := by
  induction nodes with
  | nil => simp [areSorted]
  | cons node nodes ih => rw [areSorted, Bool.and_eq_true, ih, List.forall_mem_cons]

theorem isSorted_inclusion {loc : Location} {name : Node} {data : Option Node} :
    (inclusion loc name data).isSorted = true ↔
      name.isTerm = true ∧ ∀ expr ∈ data, expr.isTerm = true := by
  cases data <;> simp [isSorted]

theorem isSorted_block {loc : Location} {kind : BlockKind} {expr body : Node}
    {orElse : Option Node} :
    (block loc kind expr body orElse).isSorted = true ↔
      expr.isTerm = true ∧ ∀ part ∈ body :: orElse.toList, part.isSorted = true := by
  cases orElse <;> simp [isSorted]

/-- Parts of well-sorted statements are well-sorted. -/
theorem isSorted_of_mem_parts {node part : Node} (h : node.isSorted = true)
    (hpart : part ∈ node.parts) : part.isSorted = true := by
  cases node with
  | block => exact (isSorted_block.1 h).2 part hpart
  | list => exact areSorted_iff.1 h part hpart
  | _ => cases hpart

end Node

/-! ### Where sorts come from

Nothing new has to be proved of the reader. What was read can be written, and what can be written is
well-sorted: `Shaped` puts proper expressions where expressions belong, and properness asks for more
than being a term. -/

mutual

theorem Node.isTerm_of_isProper : ∀ {expr : Node}, expr.isProper = true → expr.isTerm = true
  | .reference .., _ | .literal .., _ => rfl
  | .call _ _ args, h => by
    rw [isProper, Bool.and_eq_true] at h
    exact areTerms_of_areProper h.2

theorem Node.areTerms_of_areProper : ∀ {exprs : List Node}, areProper exprs = true →
    areTerms exprs = true
  | [], _ => rfl
  | expr :: exprs, h => by
    rw [areProper, Bool.and_eq_true] at h
    rw [areTerms, isTerm_of_isProper h.1, areTerms_of_areProper h.2, Bool.and_true]

end

/-- A row of well-sorted statements makes a well-sorted body. -/
theorem IsBody.isSorted {body : Node} {nodes : List Node} (h : IsBody body nodes)
    (hnodes : ∀ node ∈ nodes, node.isSorted = true) : body.isSorted = true := by
  cases h with
  | only => exact hnodes body List.mem_cons_self
  | list => exact Node.areSorted_iff.2 hnodes

/-- Statements that can be written are well-sorted. -/
theorem Shaped.isSorted {nodes : List Node} (h : Shaped nodes) :
    ∀ node ∈ nodes, node.isSorted = true := by
  induction h with
  | nil => simp
  | text _ _ _ ih => exact List.forall_mem_cons.2 ⟨rfl, ih⟩
  | interpolation hexpr _ ih => exact List.forall_mem_cons.2 ⟨Node.isTerm_of_isProper hexpr, ih⟩
  | inclusion hname hdata _ ih =>
    refine List.forall_mem_cons.2 ⟨Node.isSorted_inclusion.2 ⟨?_, ?_⟩, ih⟩
    · exact Node.isTerm_of_isProper hname
    · intro expr hexpr
      exact Node.isTerm_of_isProper (hdata expr hexpr)
  | block hexpr hbody _ _ ihinside ih =>
    refine List.forall_mem_cons.2 ⟨Node.isSorted_block.2 ⟨Node.isTerm_of_isProper hexpr, ?_⟩, ih⟩
    intro part hpart
    obtain rfl := List.mem_singleton.1 hpart
    exact hbody.isSorted ihinside
  | blockElse hexpr hbody _ horElse _ _ ihinside ihoutside ih =>
    refine List.forall_mem_cons.2 ⟨Node.isSorted_block.2 ⟨Node.isTerm_of_isProper hexpr, ?_⟩, ih⟩
    exact List.forall_mem_cons.2 ⟨hbody.isSorted ihinside,
      List.forall_mem_cons.2 ⟨horElse.isSorted ihoutside, by simp⟩⟩

/-! ### Changes of a set

What a program may do with a set once it was read: exchange or add functions, and escape templates.
The first leave the trees alone, and escaping puts a call, which is a term, around a term. An escape
of a template that is not there fails and changes nothing, so whatever is tried in whatever order,
the sorts stay. -/

/-- **A change of a set** after its templates were read. Trees cannot be put in by hand any more, as
nothing would be known of them. -/
inductive Change
  /-- other functions take the place of all -/
  | withFunctions (functions : FunctionRegistry)
  /-- a function is registered -/
  | register (name : String) (function : HostFunction)
  /-- a template is made safe for HTML -/
  | escape (template : String)
  /-- a template is escaped through a function -/
  | escapeWith (template name : String) (function : HostFunction)

namespace TemplateSet

/-- The set after a change. A change that fails leaves it as it is. -/
def change (set : TemplateSet) : Change → TemplateSet
  | .withFunctions functions => set.withFunctions functions
  | .register name function => set.register name function
  | .escape template => (set.escape template).toOption.getD set
  | .escapeWith template name function =>
    (set.escapeWith template name function).toOption.getD set

/-- The set after changes, one after the other. -/
def changeAll (set : TemplateSet) (changes : List Change) : TemplateSet :=
  changes.foldl change set

/-- **All trees of a set are well-sorted**, whichever of them a run begins with. -/
def IsSorted (set : TemplateSet) : Prop :=
  ∀ name root, set.template? name = some root → root.isSorted = true

end TemplateSet

namespace Node

variable (function : String)

theorem isExpression_of_isTerm {expr : Node} (h : expr.isTerm = true) :
    expr.isExpression = true := by
  cases expr <;> first | rfl | cases h

theorem escapeThrough_of_isTerm {expr : Node} (h : expr.isTerm = true) :
    expr.escapeThrough function = expr :=
  escapeThrough_of_isExpression function (isExpression_of_isTerm h)

mutual

/-- **Escaping keeps the sorts**: a term that is handed to a function is a term. -/
theorem isSorted_escapeThrough : ∀ {node : Node}, node.isSorted = true →
    (node.escapeThrough function).isSorted = true
  | .text .., _ => rfl
  | .interpolation loc expr, h => by
    rw [escapeThrough_interpolation, isSorted, isTerm, areTerms, areTerms, Bool.and_true]
    exact h
  -- name and data are terms, and escaping leaves terms as they are
  | .inclusion loc name data, h => by
    obtain ⟨hname, hdata⟩ := isSorted_inclusion.1 h
    have hkept := map_escapeThrough_of_isExpression function fun expr hexpr =>
      isExpression_of_isTerm (hdata expr hexpr)
    rw [escapeThrough_inclusion, escapeThrough_of_isTerm function hname, hkept]
    exact h
  | .block loc kind expr body none, h => by
    rw [isSorted, Bool.and_eq_true] at h
    rw [escapeThrough_block, escapeThrough_of_isTerm function h.1, Option.map_none, isSorted, h.1,
      isSorted_escapeThrough h.2, Bool.and_true]
  | .block loc kind expr body (some orElse), h => by
    rw [isSorted, Bool.and_eq_true, Bool.and_eq_true] at h
    rw [escapeThrough_block, escapeThrough_of_isTerm function h.1, Option.map_some, isSorted, h.1,
      isSorted_escapeThrough h.2.1, isSorted_escapeThrough h.2.2, Bool.and_true, Bool.and_true]
  | .list loc items, h => by
    rw [escapeThrough_list]
    exact areSorted_escapeThrough h

theorem areSorted_escapeThrough : ∀ {nodes : List Node},
    areSorted nodes = true → areSorted (nodes.map (escapeThrough function)) = true
  | [], _ => rfl
  | node :: nodes, h => by
    rw [areSorted, Bool.and_eq_true] at h
    rw [List.map_cons, areSorted, isSorted_escapeThrough h.1, areSorted_escapeThrough h.2,
      Bool.and_true]

end

end Node

namespace TemplateSet

variable {set escaped : TemplateSet}

theorem IsSorted.escapeWith (h : set.IsSorted) {template name : String} {function : HostFunction}
    (hescaped : set.escapeWith template name function = .ok escaped) : escaped.IsSorted := by
  intro other root hroot
  rw [template?_escapeWith hescaped, Option.map_eq_some_iff] at hroot
  obtain ⟨before, hbefore, rfl⟩ := hroot
  have hsorted := h other before hbefore
  split
  · exact Node.isSorted_escapeThrough name hsorted
  · exact hsorted

/-- What is well-sorted stays well-sorted if an escape fails. -/
theorem IsSorted.getD_toOption (h : set.IsSorted) {result : Except RunError TemplateSet}
    (hresult : ∀ escaped, result = .ok escaped → escaped.IsSorted) :
    (result.toOption.getD set).IsSorted := by
  cases result with
  | error e => exact h
  | ok escaped => exact hresult escaped rfl

/-- **Every change keeps the sorts**, also one that fails. -/
theorem IsSorted.change (h : set.IsSorted) (change : Change) : (set.change change).IsSorted := by
  cases change with
  | withFunctions functions => exact h
  | register name function => exact h
  | escape template => exact h.getD_toOption fun _ => h.escapeWith
  | escapeWith template name function => exact h.getD_toOption fun _ => h.escapeWith

theorem IsSorted.changeAll (h : set.IsSorted) (changes : List Change) :
    (set.changeAll changes).IsSorted := by
  induction changes generalizing set with
  | nil => exact h
  | cons change changes ih => exact ih (h.change change)

/-- **Trees that were read are well-sorted**: they are shaped, and that is more. No condition is on
the source but that it can be read. -/
theorem isSorted_of_ofSource {src code : String} {name? : Option String}
    (h : ofSource src code name? = .ok set) : set.IsSorted := by
  intro name root hroot
  obtain ⟨row, hbody, hshaped⟩ := isShaped_of_ofSource h (name, root) (mem_entries_iff.2 hroot)
  exact hbody.isSorted hshaped.isSorted

end TemplateSet

/-! ### Errors of well-sorted statements

Two errors blame the form of a tree: a statement was evaluated, or an expression run. In a
well-sorted tree neither can be. The proof goes through the steps once, and for each kind of
statement asks for the sorts of just those subtrees that it evaluates. -/

/-- **An ordinary error** of a run: the data, a function or the name of a template is to blame, and
not the form of a tree. -/
def RunError.isOrdinary : RunError → Bool
  | .unknownFunction .. | .unknownTemplate .. | .notAMapping .. | .notIterable .. | .templateName ..
  | .functionFailed .. => true
  | .missingTemplate _ | .notAnExpression _ | .notAStatement _ | .write => false

theorem RunError.exists_loc?_of_isOrdinary {e : RunError} (h : e.isOrdinary = true) :
    ∃ loc, e.loc? = some loc := by
  cases e <;> first | exact ⟨_, rfl⟩ | cases h

theorem isOrdinary_of_follow {loc : Location} {path : List String} {value : Value} {e : RunError}
    (h : follow loc path value = .error e) : e.isOrdinary = true := by
  fun_induction follow loc path value with
  | case1 => cases h
  | case2 => cases h
  | case3 property path fields ih => exact ih h
  | case4 =>
    cases h
    rfl

theorem isOrdinary_of_applyFunction {loc : Location} {name : String} {function : HostFunction}
    {args : List Value} {e : RunError} (h : applyFunction loc name function args = .error e) :
    e.isOrdinary = true := by
  obtain ⟨reason, -, rfl⟩ := applyFunction_eq_error.1 h
  rfl

mutual

/-- **Terms fail in an ordinary way**: for a function that is missing or says no, or for a property
of what has none. -/
theorem isOrdinary_of_evaluate {env : Env} {e : RunError} : ∀ {expr : Node}, expr.isTerm = true →
    evaluate env expr = .error e → e.isOrdinary = true
  | .reference .., _, h => isOrdinary_of_follow h
  | .call loc name args, hterm, h => by
    rw [evaluate] at h
    -- a missing function is found before the arguments are looked at
    split at h
    · cases h
      rfl
    · split at h
      · next e' hargs =>
        cases h
        exact isOrdinary_of_evaluateAll hterm hargs
      · exact isOrdinary_of_applyFunction h

theorem isOrdinary_of_evaluateAll {env : Env} {e : RunError} : ∀ {exprs : List Node},
    Node.areTerms exprs = true → evaluateAll env exprs = .error e → e.isOrdinary = true
  | expr :: exprs, hterms, h => by
    rw [Node.areTerms, Bool.and_eq_true] at hterms
    rw [evaluateAll] at h
    split at h
    · next e' hexpr =>
      cases h
      exact isOrdinary_of_evaluate hterms.1 hexpr
    · split at h
      · next e' hexprs =>
        cases h
        exact isOrdinary_of_evaluateAll hterms.2 hexprs
      · cases h

end

theorem Env.isOrdinary_of_branches {env : Env} {loc : Location} {kind : BlockKind} {value : Value}
    {body : Node} {orElse : Option Node} {e : RunError}
    (h : env.branches loc kind value body orElse = .error e) : e.isOrdinary = true := by
  unfold branches at h
  split at h
  · split at h
    · cases h
    · cases h
    · split at h
      · cases h
      · cases h
        rfl
  · cases h

theorem Env.isOrdinary_of_included {env : Env} {loc : Location} {data : Option Node} {value : Value}
    {e : RunError} (hdata : ∀ expr ∈ data, expr.isTerm = true)
    (h : env.included loc data value = .error e) : e.isOrdinary = true := by
  unfold included at h
  split at h
  · split at h
    · cases h
      rfl
    · rw [map_eq_error] at h
      cases data with
      | none => cases h
      | some expr => exact isOrdinary_of_evaluate (hdata expr rfl) (map_eq_error.1 h)
  · cases h
    rfl

/-- **A well-sorted statement fails in an ordinary way**, if it does, by itself or for what it
evaluates. -/
theorem Task.isOrdinary_of_step {task : Task} {e : RunError} (hsorted : task.node.isSorted = true)
    (h : task.step = .error e) : e.isOrdinary = true := by
  obtain ⟨env, template, node⟩ := task
  cases node with
  | text | list => cases h
  | interpolation loc expr =>
    rw [step_interpolation, map_eq_error] at h
    exact isOrdinary_of_evaluate hsorted h
  | inclusion loc name data =>
    obtain ⟨hname, hdata⟩ := Node.isSorted_inclusion.1 hsorted
    rw [step_inclusion, bind_eq_error] at h
    rcases h with h | ⟨value, -, h⟩
    · exact isOrdinary_of_evaluate hname h
    · exact Env.isOrdinary_of_included hdata (map_eq_error.1 h)
  | block loc kind expr body orElse =>
    rw [step_block, bind_eq_error] at h
    rcases h with h | ⟨value, -, h⟩
    · exact isOrdinary_of_evaluate (Node.isSorted_block.1 hsorted).1 h
    · exact Env.isOrdinary_of_branches (map_eq_error.1 h)
  | reference | call | literal => cases hsorted

/-! ### Runs of well-sorted sets

Being well-sorted holds of all roots and passes to the parts of statements, which is what an
invariant of runs takes (`halt_trace_invariant`). So what was proved of one step holds of the error
of any run. -/

namespace Env

variable {depth : Nat} {env : Env} {name : String}

/-- A run of well-sorted templates that fails does so in an ordinary way, unless the template is
missing. -/
theorem isOrdinary_of_render (hsorted : env.set.IsSorted) {e : RunError}
    (h : env.render depth name = .error (.failed e)) :
    env.set.template? name = none ∧ e = .missingTemplate name ∨ e.isOrdinary = true := by
  have hhalt : (env.trace depth name).halt? = some (.failed e) := by
    rw [render_eq] at h
    split at h
    · cases h
    · next halt hhalt =>
      cases h
      exact hhalt
  have hpart : ∀ (_ : String) (node part : Node), node.isSorted = true → part ∈ node.parts →
      part.isSorted = true := by
    intro _ node part hnode hpart
    exact Node.isSorted_of_mem_parts hnode hpart
  rcases halt_trace_invariant hsorted hpart hhalt with hmissing | ⟨task, -, hnode, hstep⟩
  · exact .inl hmissing
  · exact .inr (Task.isOrdinary_of_step hnode hstep)

/-- A template that is missing is what a run of it fails for. -/
theorem render_of_template?_eq_none (h : env.set.template? name = none) :
    env.render depth name = .error (.failed (.missingTemplate name)) := by
  rw [render_eq, trace_of_none h]
  rfl

end Env

namespace TemplateSet

variable {src code : String} {name? : Option String} {set : TemplateSet}

/-- **Templates that were read never go wrong.** Whatever becomes of their functions and whichever
of them are escaped, how often and in which order: rendering never finds an expression where a
statement belongs or a statement where an expression belongs, and its writes do not fail; it fails
for a missing template if and only if the set has no template of the name it was asked for, and
every other error says where. -/
theorem render_never_goes_wrong (h : ofSource src code name? = .ok set) (changes : List Change)
    (data : Value) (depth : Nat) (name : String) :
    (∀ e, ((set.changeAll changes).env data).render depth name = .error (.failed e) →
      (∀ loc, e ≠ .notAStatement loc) ∧ (∀ loc, e ≠ .notAnExpression loc) ∧ e ≠ .write ∧
        ((∀ missing, e ≠ .missingTemplate missing) → ∃ loc, e.loc? = some loc)) ∧
      ∀ missing,
        ((set.changeAll changes).env data).render depth name
            = .error (.failed (.missingTemplate missing)) ↔
          name ∉ (set.changeAll changes).names ∧ missing = name := by
  have hsorted : ((set.changeAll changes).env data).set.IsSorted :=
    (isSorted_of_ofSource h).changeAll changes
  constructor
  · intro e he
    rcases Env.isOrdinary_of_render hsorted he with ⟨-, rfl⟩ | hordinary
    · refine ⟨nofun, nofun, nofun, ?_⟩
      intro hmissing
      exact absurd rfl (hmissing name)
    · refine ⟨fun loc heq => ?_, fun loc heq => ?_, fun heq => ?_,
        fun _ => RunError.exists_loc?_of_isOrdinary hordinary⟩
      -- none of the three is ordinary
      all_goals
        rw [heq] at hordinary
        cases hordinary
  · intro missing
    rw [← template?_eq_none_iff]
    constructor
    · intro he
      rcases Env.isOrdinary_of_render hsorted he with ⟨hnone, heq⟩ | hordinary
      · cases heq
        exact ⟨hnone, rfl⟩
      · cases hordinary
    · rintro ⟨hnone, rfl⟩
      exact Env.render_of_template?_eq_none hnone

/-- A greeting that was escaped is not to be had under another name. -/
theorem escaped_greeting_is_no_parting :
    ∃ set, ofSource "hi" "Hi {{ .name }}" (some "greeting") = .ok set ∧
      ((set.changeAll [.escape "greeting"]).env .null).render 2 "parting"
        = .error (.failed (.missingTemplate "parting")) := by
  obtain ⟨set, hread, hentries⟩ := exists_of_entries_eq
    (show (ofSource "hi" "Hi {{ .name }}" (some "greeting")).toOption.map (·.templates.entries)
      = some [("greeting", .list ⟨"hi", 1⟩ [.text ⟨"hi", 1⟩ "Hi ",
          .interpolation ⟨"hi", 1⟩ (.reference ⟨"hi", 1⟩ ["name"])])] by decide +kernel)
  have hnames : (set.changeAll [.escape "greeting"]).names = ["greeting"] := by
    obtain ⟨functions, entries, hascending⟩ := set
    subst hentries
    rfl
  obtain ⟨-, hmissing⟩ :=
    render_never_goes_wrong hread [.escape "greeting"] .null 2 "parting"
  refine ⟨set, hread, (hmissing "parting").2 ⟨?_, rfl⟩⟩
  rw [hnames]
  decide

end TemplateSet

end Stencil
