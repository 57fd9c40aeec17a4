import Stencil.Node.Subtrees
import Stencil.Proofs.Run.Steps

/-!
# Data that no template mentions

A template gets at the data it is run on through references alone. One that never asks for a field,
nor takes the data as a whole (`Node.IsSilentOn`), runs the same whatever that field holds, and
without it (`Env.run_agreeBut`). The data of two runs differ only as long as they are the data that
the runs began with: a value that a block or an inclusion goes on with was computed by an
expression, and is the same in both.
-/

namespace Stencil

universe u

variable {α : Type u} {key : String}

/-! ### Entries but for one

Two objects are compared by what is under each name but one. That covers both ways to change a
field, and it is all that a reference sees of them. -/

namespace Entries

variable {entries others : List (String × α)}

/-- The entries without those of a name. -/
def erase (key : String) (entries : List (String × α)) : List (String × α) :=
  entries.filter fun entry => entry.1 ≠ key

/-- **Entries agree but for a name**: under every other they hold the same, or neither holds
anything. -/
def AgreeBut (key : String) (entries others : List (String × α)) : Prop :=
  ∀ name, name ≠ key → others.lookup name = entries.lookup name

/-- Without a name, all else is there. -/
theorem agreeBut_erase (key : String) (entries : List (String × α)) :
    AgreeBut key entries (erase key entries) := by
  intro name hname
  induction entries with
  | nil => rfl
  | cons entry entries ih =>
    rw [erase, List.filter_cons]
    split
    · rw [lookup_cons, lookup_cons, ← erase, ih]
    · next hentry =>
      have hkey : entry.1 = key := by simpa using hentry
      rw [lookup_cons, if_neg (hkey ▸ hname), ← erase, ih]

/-- With another value under a name, all else is there. -/
theorem agreeBut_insert (key : String) (value : α) (entries : List (String × α)) :
    AgreeBut key entries (insert key value entries) := by
  intro name hname
  rw [lookup_insert, if_neg hname]

end Entries

/-! ### Asking for a field

A field is asked for by the first name of a reference, and a reference without any takes all fields
with it. Names further on belong to values inside: they do not count. The condition is on all nodes
of a tree, those that a run never comes to as well, so that it can be decided without running. -/

namespace Node

/-- **A node asks for a field** of the data: it is a reference that begins with it, or to the
data as a whole. Looking at whether the data are truthy, or going over them, takes such a
reference too. -/
def asksFor (key : String) : Node → Bool
  | .reference _ [] => true
  | .reference _ (property :: _) => property == key
  | _ => false

/-- **A tree is silent on a field**: none of its nodes asks for it. -/
def IsSilentOn (key : String) (tree : Node) : Prop :=
  ∀ node ∈ tree.subtrees, node.asksFor key = false

instance (key : String) (tree : Node) : Decidable (tree.IsSilentOn key) :=
  inferInstanceAs (Decidable (∀ node ∈ tree.subtrees, node.asksFor key = false))

theorem IsSilentOn.children {tree child : Node} (h : tree.IsSilentOn key)
    (hchild : child ∈ tree.children) : child.IsSilentOn key :=
  (forall_mem_subtrees_iff.1 h).2 child hchild

end Node

/-- **A set is silent on a field**: each of its trees is, also those that a run does not come to. -/
def TemplateSet.IsSilentOn (key : String) (set : TemplateSet) : Prop :=
  ∀ name root, set.template? name = some root → root.IsSilentOn key

theorem TemplateSet.set_env (set : TemplateSet) (data : Value) : (set.env data).set = set := rfl

/-! ### Two runs

Two runs on data that agree but for the field. What a block or an inclusion hands on is the value of
an expression, and as expressions have the same values in both runs, these go on with the same data
from there: nothing is left to prove. Only where the data are handed on as they are does the
induction on the depth go on. -/

/-- Expressions have the same values if each has. -/
theorem evaluateAll_eq_of_forall {env env' : Env} {exprs : List Node}
    (h : ∀ expr ∈ exprs, evaluate env' expr = evaluate env expr) :
    evaluateAll env' exprs = evaluateAll env exprs := by
  induction exprs with
  | nil => rfl
  | cons expr exprs ih =>
    obtain ⟨hexpr, hexprs⟩ := List.forall_mem_cons.1 h
    rw [evaluateAll_cons, evaluateAll_cons, hexpr, ih hexprs]

section Agreement

variable {set : TemplateSet} {fields others : List (String × Value)}
  (hagree : Entries.AgreeBut key fields others)

include hagree

/-- **The value of an expression** that is silent on the field, and the error if it has none. -/
theorem evaluate_agreeBut (expr : Node) (h : expr.IsSilentOn key) :
    evaluate (set.env (.object others)) expr = evaluate (set.env (.object fields)) expr := by
  induction expr using Node.children_induction with
  | h expr ih =>
    cases expr with
    | reference loc path =>
      have hasks := h _ (Node.mem_subtrees_self _)
      cases path with
      -- a reference to the data as a whole is not silent
      | nil => cases hasks
      | cons property path =>
        have hlookup : others.lookup property = fields.lookup property :=
          hagree property (ne_of_beq_false hasks)
        show follow loc path (fieldOrNull others property)
          = follow loc path (fieldOrNull fields property)
        rw [fieldOrNull, fieldOrNull, hlookup]
    | call loc name args =>
      have hargs : evaluateAll (set.env (.object others)) args
          = evaluateAll (set.env (.object fields)) args :=
        evaluateAll_eq_of_forall fun arg harg => ih arg harg (h.children harg)
      rw [evaluate, evaluate, hargs]
      rfl
    | _ => rfl

namespace Env

/-- What an inclusion with data of its own runs in. -/
theorem forInclusion_agreeBut {data : Node} (h : data.IsSilentOn key) :
    (set.env (.object others)).forInclusion (some data)
      = (set.env (.object fields)).forInclusion (some data) := by
  rw [forInclusion, forInclusion, evaluate_agreeBut hagree data h]
  rfl

omit hagree

/-- Runs up to a depth of what is silent on the field agree. -/
def RunsAgree (key : String) (set : TemplateSet) (fields others : List (String × Value))
    (depth : Nat) : Prop :=
  ∀ node : Node, node.IsSilentOn key →
    run depth (set.env (.object others)) node = run depth (set.env (.object fields)) node

variable {depth : Nat} (hruns : RunsAgree key set fields others depth)

include hruns

/-- Statements in a row run alike if each does. -/
theorem forM_agreeBut {items : List Node} (h : ∀ item ∈ items, item.IsSilentOn key) :
    items.forM (run depth (set.env (.object others)))
      = items.forM (run depth (set.env (.object fields))) := by
  induction items with
  | nil => rfl
  | cons item items ih =>
    obtain ⟨hitem, hitems⟩ := List.forall_mem_cons.1 h
    show (run depth (set.env (.object others)) item >>= fun _ =>
        items.forM (run depth (set.env (.object others))))
      = run depth (set.env (.object fields)) item >>= fun _ =>
        items.forM (run depth (set.env (.object fields)))
    rw [hruns item hitem, ih hitems]

/-- What a block runs sees the same value, or the data as they were. -/
theorem runBranch_agreeBut (loc : Location) (kind : BlockKind) (value : Value) {body : Node}
    {orElse : Option Node} (hbody : body.IsSilentOn key)
    (horElse : ∀ other ∈ orElse, other.IsSilentOn key) :
    runBranch depth (set.env (.object others)) loc kind value body orElse
      = runBranch depth (set.env (.object fields)) loc kind value body orElse := by
  unfold runBranch
  split
  · cases kind with
    | ifBlock => exact hruns body hbody
    -- these run on the value, which is the same for both
    | withBlock | range => rfl
  · cases orElse with
    | none => rfl
    | some other => exact hruns other (horElse other rfl)

include hagree

/-- What an inclusion runs sees the data that it names, or the data as they were. -/
theorem runIncluded_agreeBut (hset : set.IsSilentOn key) (loc : Location) {data : Option Node}
    (hdata : ∀ expr ∈ data, expr.IsSilentOn key) (value : Value) :
    runIncluded depth (set.env (.object others)) loc data value
      = runIncluded depth (set.env (.object fields)) loc data value := by
  cases value with
  | string name =>
    rw [runIncluded, runIncluded, TemplateSet.set_env, TemplateSet.set_env]
    cases hroot : set.template? name with
    | none => rfl
    | some root =>
      cases data with
      -- the data as they are go to a tree of the set, which is silent too
      | none => exact hruns root (hset name root hroot)
      | some expr => rw [forInclusion_agreeBut hagree (hdata expr rfl)]
  | _ => rfl

omit hruns

/-- **The run of a tree** that is silent on the field, in a set that is: the same writes and the
same end, whatever the sink. -/
theorem run_agreeBut (hset : set.IsSilentOn key) (depth : Nat) :
    RunsAgree key set fields others depth := by
  induction depth with
  | zero => exact fun _ _ => rfl
  | succ depth ih =>
    intro node h
    cases node with
    | text => rfl
    | interpolation loc expr =>
      rw [run, run, evaluate_agreeBut hagree expr (h.children List.mem_cons_self)]
    | inclusion loc name data =>
      rw [run_inclusion, run_inclusion,
        evaluate_agreeBut hagree name (h.children List.mem_cons_self)]
      apply congrArg
      funext value
      exact runIncluded_agreeBut hagree ih hset loc
        (fun expr hexpr => h.children (List.mem_cons_of_mem _ (Option.mem_toList.2 hexpr))) value
    | block loc kind expr body orElse =>
      rw [run_block, run_block, evaluate_agreeBut hagree expr (h.children List.mem_cons_self)]
      apply congrArg
      funext value
      exact runBranch_agreeBut ih loc kind value
        (h.children (List.mem_cons_of_mem _ List.mem_cons_self))
        fun other hother => h.children
          (List.mem_cons_of_mem _ (List.mem_cons_of_mem _ (Option.mem_toList.2 hother)))
    | list loc items =>
      rw [run, run]
      exact forM_agreeBut ih fun item hitem => h.children hitem
    | reference | call | literal => rfl

/-- So does the run of a template. -/
theorem execute_agreeBut (hset : set.IsSilentOn key) (depth : Nat) (name : String) :
    (set.env (.object others)).execute depth name
      = (set.env (.object fields)).execute depth name := by
  rw [execute, execute, TemplateSet.set_env, TemplateSet.set_env]
  cases hroot : set.template? name with
  | none => rfl
  | some root => exact run_agreeBut hagree hset depth root (hset name root hroot)

end Env

end Agreement

/-- **What no template mentions cannot matter**: if no tree of a set asks for a field, nor for the
data as a whole, then without that field, and with any value in it, every template writes the same
and ends with the same result, errors and their locations included. -/
theorem TemplateSet.unmentioned_field_cannot_matter {set : TemplateSet} {key : String}
    (h : set.IsSilentOn key) (fields : List (String × Value)) (value : Value) (depth : Nat)
    (name : String) :
    ((set.env (.object (Entries.erase key fields))).execute depth name
        = (set.env (.object fields)).execute depth name ∧
      (set.env (.object (Entries.insert key value fields))).execute depth name
        = (set.env (.object fields)).execute depth name) ∧
    (set.env (.object (Entries.erase key fields))).render depth name
        = (set.env (.object fields)).render depth name ∧
      (set.env (.object (Entries.insert key value fields))).render depth name
        = (set.env (.object fields)).render depth name := by
  have herased := Env.execute_agreeBut (Entries.agreeBut_erase key fields) h depth name
  have hinserted := Env.execute_agreeBut (Entries.agreeBut_insert key value fields) h depth name
  refine ⟨⟨herased, hinserted⟩, ?_, ?_⟩
  · rw [Env.render, Env.render, herased]
  · rw [Env.render, Env.render, hinserted]

/-- A greeting does not tell a secret. -/
theorem greeting_keeps_secret :
    let tree := Node.list ⟨"m", 1⟩ [.text ⟨"m", 1⟩ "Hi ",
      .interpolation ⟨"m", 1⟩ (.reference ⟨"m", 1⟩ ["name"])]
    let set := TemplateSet.setTemplate ∅ "m" tree
    set.IsSilentOn "secret" ∧
      (set.env (.object [("name", .string "Ann")])).render 3 "m" = .ok "Hi Ann" ∧
      (set.env (.object [("name", .string "Ann"), ("secret", .string "x")])).render 3 "m"
        = .ok "Hi Ann" := by
  intro tree set
  have hsilent : set.IsSilentOn "secret" := by
    intro name root hroot
    rw [TemplateSet.template?_setTemplate] at hroot
    split at hroot
    · cases hroot
      decide
    · cases hroot
  have hwithout : (set.env (.object [("name", .string "Ann")])).render 3 "m" = .ok "Hi Ann" := by
    rfl
  refine ⟨hsilent, hwithout, ?_⟩
  rw [← hwithout]
  exact (TemplateSet.unmentioned_field_cannot_matter hsilent [("name", .string "Ann")]
    (.string "x") 3 "m").2.2

end Stencil
