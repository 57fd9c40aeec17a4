import Mathlib.Data.List.Basic
import Stencil.Node.Subtrees
import Stencil.Proofs.Run.Trace
import Stencil.TemplateSet.Escaping

/-!
# Sets that are safe for HTML

A text is safe in HTML if it has no brackets and quotes and every ampersand in it begins an entity;
the text that the escaper makes is (`Text.Html.isSafe_escape`). In a template that was made safe,
however often, the outermost function of every interpolation is the escaper. So whatever the data
are and whatever the other functions answer, its interpolations write safe text only, and if all
templates of a set were made safe, every bracket and quote in any output stands in a text of the
set's own (`TemplateSet.escape_writes_safe_text`).
-/

namespace Stencil

/-! ### The escaper -/

/-- What the escaper answers has safe text, if it has any. -/
theorem isSafe_of_htmlEscaper {args : List Value} {value : Value} {text : String}
    (h : htmlEscaper args = .ok value) (htext : value.output? = some text) :
    Text.Html.IsSafe text.toList := by
  unfold htmlEscaper at h
  split at h
  · split at h
    · cases h
      cases htext
    · cases h
      cases htext
      rw [String.toList_ofList]
      exact Text.Html.isSafe_escape _
  · cases h

/-! ### Escaped trees

That a tree is escaped is a property of its origin, and it is inherited by the parts that a run goes
into. It is what a run carries along: whatever interpolation it comes to in an escaped template
calls the escaper. -/

namespace Node

variable (function : String)

/-- **A tree that went through a function**: it is what escaping makes of some tree, which need not
be in any set any more. -/
def IsEscaped (node : Node) : Prop :=
  ∃ origin : Node, node = origin.escapeThrough function

theorem parts_escapeThrough (node : Node) :
    (node.escapeThrough function).parts = node.parts.map (escapeThrough function) := by
  cases node with
  | block loc kind expr body orElse =>
    rw [escapeThrough_block]
    cases orElse <;> rfl
  | list loc items => rw [escapeThrough_list, parts, parts]
  | _ => rfl

variable {function}

/-- Parts of escaped trees are escaped. -/
theorem IsEscaped.of_mem_parts {node part : Node} (h : node.IsEscaped function)
    (hpart : part ∈ node.parts) : part.IsEscaped function := by
  obtain ⟨origin, rfl⟩ := h
  rw [parts_escapeThrough] at hpart
  obtain ⟨before, -, rfl⟩ := List.mem_map.1 hpart
  exact ⟨before, rfl⟩

/-- **Every interpolation of an escaped tree calls the function**, on one argument. What it puts
into the output is therefore an answer of the function. -/
theorem IsEscaped.exists_call {loc : Location} {expr : Node}
    (h : (interpolation loc expr).IsEscaped function) :
    ∃ inner, expr = call loc function [inner] := by
  obtain ⟨origin, horigin⟩ := h
  cases origin with
  | interpolation loc' inner =>
    rw [escapeThrough_interpolation] at horigin
    cases horigin
    exact ⟨inner, rfl⟩
  | block =>
    rw [escapeThrough_block] at horigin
    cases horigin
  | inclusion =>
    rw [escapeThrough_inclusion] at horigin
    cases horigin
  | list =>
    rw [escapeThrough_list] at horigin
    cases horigin
  | text | reference | call | literal => cases horigin

variable (function)

/-- **Escaping keeps the texts** of a tree, in their order: calls are put around expressions
only. -/
theorem contents_escapeThrough (node : Node) :
    (node.escapeThrough function).contents = node.contents := by
  induction node using children_induction with
  | h node ih =>
    have hmap : (node.children.map (escapeThrough function)).flatMap contents
        = node.children.flatMap contents := by
      rw [List.flatMap_map]
      exact List.flatMap_congr ih
    -- a call has no text of its own, and everywhere else the children keep theirs
    cases node with
    | text | reference | call | literal => rfl
    | interpolation loc expr =>
      rw [escapeThrough_interpolation, contents_eq, contents_eq (interpolation loc expr)]
      simp [children, contents_eq (call loc function [expr]), content?]
    | inclusion loc name data =>
      rw [escapeThrough_inclusion, contents_eq, contents_eq (inclusion loc name data), ← hmap]
      cases data <;> rfl
    | block loc kind expr body orElse =>
      rw [escapeThrough_block, contents_eq, contents_eq (block loc kind expr body orElse), ← hmap]
      cases orElse <;> rfl
    | list loc items =>
      rw [escapeThrough_list, contents_eq, contents_eq (list loc items), ← hmap]
      rfl

end Node

/-! ### Sets that were made safe

Templates are made safe one by one, and each time the others stay as they are or stay escaped. What
does not change is which names there are and which texts stand in the trees, so both can be said of
the set as it was. -/

namespace TemplateSet

/-- **The texts** that stand anywhere in the trees of a set. -/
def contents (set : TemplateSet) : List String :=
  set.templates.entries.flatMap fun entry => entry.2.contents

theorem mem_contents_iff {set : TemplateSet} {content : String} :
    content ∈ set.contents ↔
      ∃ name root, set.template? name = some root ∧ content ∈ root.contents := by
  rw [contents, List.mem_flatMap]
  constructor
  · rintro ⟨⟨name, root⟩, hentry, hcontent⟩
    exact ⟨name, root, mem_entries_iff.1 hentry, hcontent⟩
  · rintro ⟨name, root, hroot, hcontent⟩
    exact ⟨(name, root), mem_entries_iff.2 hroot, hcontent⟩

/-- **Makes templates safe for HTML**, one after the other, up to the first that the set does not
have. A name may come more than once. -/
def escapeAll (set : TemplateSet) (names : List String) : Except RunError TemplateSet :=
  names.foldlM escape set

/-- Templates of a set, all escaped. -/
def AreEscaped (set : TemplateSet) (names : List String) : Prop :=
  ∀ name ∈ names, ∀ root, set.template? name = some root → root.IsEscaped htmlEscaperName

/-- **A node that a run of a template may come to**, where some templates are escaped. Both parts
pass from a statement to its parts, so together they are an invariant of runs. -/
structure Stands (set : TemplateSet) (names : List String) (template : String) (node : Node) :
    Prop where
  /-- it is in the tree of the template -/
  mem_subtrees : ∃ root, set.template? template = some root ∧ node ∈ root.subtrees
  /-- it is escaped if the template is -/
  isEscaped : template ∈ names → node.IsEscaped htmlEscaperName

variable {set escaped : TemplateSet} {name : String} {names : List String}

theorem AreEscaped.stands_root (h : set.AreEscaped names) {template : String} {root : Node}
    (hroot : set.template? template = some root) : set.Stands names template root where
  mem_subtrees := ⟨root, hroot, root.mem_subtrees_self⟩
  isEscaped hmem := h template hmem root hroot

theorem Stands.of_mem_parts {template : String} {node part : Node}
    (h : set.Stands names template node) (hpart : part ∈ node.parts) :
    set.Stands names template part where
  mem_subtrees := by
    obtain ⟨root, hroot, hnode⟩ := h.mem_subtrees
    have hunder : part ∈ node.subtrees := Node.mem_subtrees_of_mem_children
      (Node.mem_children_of_mem_parts hpart) part.mem_subtrees_self
    exact ⟨root, hroot, Node.mem_subtrees_trans hunder hnode⟩
  isEscaped hmem := (h.isEscaped hmem).of_mem_parts hpart

theorem names_escape (h : set.escape name = .ok escaped) (other : String) :
    other ∈ escaped.names ↔ other ∈ set.names := by
  rw [← not_iff_not, ← template?_eq_none_iff, ← template?_eq_none_iff, template?_escapeWith h,
    Option.map_eq_none_iff]

theorem contents_escape (h : set.escape name = .ok escaped) (content : String) :
    content ∈ escaped.contents ↔ content ∈ set.contents := by
  have hsame : ∀ (other : String) (root : Node),
      (if other = name then root.escapeThrough htmlEscaperName else root).contents
        = root.contents := by
    intro other root
    split
    · exact root.contents_escapeThrough htmlEscaperName
    · rfl
  rw [mem_contents_iff, mem_contents_iff]
  constructor
  · rintro ⟨other, root, hroot, hcontent⟩
    rw [template?_escapeWith h, Option.map_eq_some_iff] at hroot
    obtain ⟨before, hbefore, rfl⟩ := hroot
    rw [hsame] at hcontent
    exact ⟨other, before, hbefore, hcontent⟩
  · rintro ⟨other, root, hroot, hcontent⟩
    refine ⟨other, _, (template?_escapeWith h other).trans (by rw [hroot, Option.map_some]), ?_⟩
    rwa [hsame]

/-- What is escaped stays escaped, and the template that is made safe is. -/
theorem AreEscaped.escape (h : set.AreEscaped names) (hescaped : set.escape name = .ok escaped) :
    escaped.AreEscaped (name :: names) := by
  intro other hother root hroot
  rw [template?_escapeWith hescaped, Option.map_eq_some_iff] at hroot
  obtain ⟨before, hbefore, rfl⟩ := hroot
  split
  · exact ⟨before, rfl⟩
  · next hne => exact h other ((List.mem_cons.1 hother).resolve_left hne) before hbefore

/-- **Templates of a set can be made safe**, in any order and any number of times, and then they are
escaped; the set keeps its names and its texts. -/
theorem exists_escapeAll {done : List String} (hdone : set.AreEscaped done)
    (h : ∀ name ∈ names, name ∈ set.names) :
    ∃ escaped, set.escapeAll names = .ok escaped ∧ escaped.AreEscaped (done ++ names) ∧
      (∀ other, other ∈ escaped.names ↔ other ∈ set.names) ∧
      ∀ content, content ∈ escaped.contents ↔ content ∈ set.contents := by
  induction names generalizing set done with
  | nil =>
    rw [List.append_nil]
    exact ⟨set, rfl, hdone, fun _ => Iff.rfl, fun _ => Iff.rfl⟩
  | cons name names ih =>
    obtain ⟨hname, hnames⟩ := List.forall_mem_cons.1 h
    obtain ⟨next, hnext⟩ := exists_escapeWith hname htmlEscaperName htmlEscaper
    have hstep := names_escape hnext
    obtain ⟨escaped, hescaped, hare, hnamesEq, hcontentsEq⟩ :=
      ih (hdone.escape hnext) fun other hother => (hstep other).2 (hnames other hother)
    refine ⟨escaped, ?_, ?_, ?_, ?_⟩
    · rw [escapeAll, List.foldlM_cons, TemplateSet.escape, hnext]
      exact hescaped
    -- the order in which names were escaped is of no matter
    · intro other hother
      refine hare other ?_
      simp only [List.cons_append, List.mem_cons, List.mem_append] at hother ⊢
      rcases hother with hother | hother | hother
      · exact .inr (.inl hother)
      · exact .inl hother
      · exact .inr (.inr hother)
    · exact fun other => (hnamesEq other).trans (hstep other)
    · exact fun content => (hcontentsEq content).trans (contents_escape hnext content)

end TemplateSet

/-! ### Runs of sets that were made safe

The invariant of a run is `Stands`: the node that it is at belongs to a tree of the set, and is
escaped if its template is. Writes then come from two sources, the texts of such nodes and the
answers of the escaper. -/

namespace Env

variable {env : Env} {names : List String} {depth : Nat} {name : String}

/-- **What a run comes to** in a set with escaped templates: nodes of its trees, which in the
escaped templates are escaped. -/
theorem exists_task_of_mem_trace (hescaped : env.set.AreEscaped names) {event : Event}
    (h : event ∈ (env.trace depth name).events) :
    ∃ (task : Task) (next : List Task), task.env.set = env.set ∧
      task.step = .ok (event.action, next) ∧ event.template = task.template ∧
      env.set.Stands names task.template task.node := by
  have hroot : ∀ template root, env.set.template? template = some root →
      env.set.Stands names template root := by
    intro template root hroot
    exact hescaped.stands_root hroot
  have hpart : ∀ template node part, env.set.Stands names template node → part ∈ node.parts →
      env.set.Stands names template part := by
    intro template node part hnode hpart
    exact hnode.of_mem_parts hpart
  obtain ⟨task, action, next, hset, hstands, hstep, rfl⟩ := mem_trace_invariant hroot hpart h
  exact ⟨task, next, hset, hstep, rfl, hstands⟩

/-- **Interpolations of escaped templates put safe text**, as long as the escaper is bound to its
name. -/
theorem isSafe_of_mem_trace (hescaped : env.set.AreEscaped names)
    (hbound : env.set.functions.find? htmlEscaperName = some htmlEscaper) {event : Event}
    (h : event ∈ (env.trace depth name).events) (htemplate : event.template ∈ names) {value : Value}
    (hputs : event.action = .puts value) {text : String} (htext : value.output? = some text) :
    Text.Html.IsSafe text.toList := by
  obtain ⟨task, next, hset, hstep, heq, hstands⟩ := exists_task_of_mem_trace hescaped h
  rw [hputs] at hstep
  obtain ⟨loc, expr, hnode, hvalue⟩ := Task.interpolation_of_step hstep
  have hinterpolation := hstands.isEscaped (heq ▸ htemplate)
  rw [hnode] at hinterpolation
  obtain ⟨inner, rfl⟩ := hinterpolation.exists_call
  obtain ⟨function, values, hfunction, -, hcall⟩ := evaluate_call_eq_ok.1 hvalue
  rw [hset, hbound] at hfunction
  cases hfunction
  exact isSafe_of_htmlEscaper hcall htext

/-- **Every write of a run is a text of the set or safe**, if all its templates are escaped and the
name of the escaper still stands for it. -/
theorem mem_contents_or_isSafe_of_mem_outputs (hescaped : env.set.AreEscaped names)
    (hall : ∀ other ∈ env.set.names, other ∈ names)
    (hbound : env.set.functions.find? htmlEscaperName = some htmlEscaper) {text : String}
    (h : text ∈ (env.trace depth name).outputs) :
    text ∈ env.set.contents ∨ Text.Html.IsSafe text.toList := by
  obtain ⟨event, hevent, htext⟩ := List.mem_filterMap.1 h
  obtain ⟨task, next, hset, hstep, heq, hstands⟩ := exists_task_of_mem_trace hescaped hevent
  obtain ⟨root, hroot, hnode⟩ := hstands.mem_subtrees
  -- of the events only these two have a text
  cases haction : event.action with
  | writes content =>
    rw [haction] at hstep htext
    cases htext
    obtain ⟨loc, htask⟩ := Task.text_of_step hstep
    rw [htask] at hnode
    exact .inl (TemplateSet.mem_contents_iff.2
      ⟨task.template, root, hroot, List.mem_filterMap.2 ⟨_, hnode, rfl⟩⟩)
  | puts value =>
    rw [haction] at htext
    have hname : task.template ∈ env.set.names := TemplateSet.mem_names_iff.2 ⟨root, hroot⟩
    exact .inr (isSafe_of_mem_trace hescaped hbound hevent (heq ▸ hall _ hname) haction htext)
  | includes | decides | lines =>
    rw [haction] at htext
    cases htext

end Env

/-! ### Where markup comes from

A run writes texts one after the other, and a character of what is written belongs to one of them.
Brackets and quotes do not occur in safe texts, so they belong to the texts of the set. -/

/-- In texts in a row, a character stands in one of them. -/
theorem exists_of_join_eq {texts : List String} {before after : List Char} {c : Char}
    (h : (String.join texts).toList = before ++ c :: after) :
    ∃ text ∈ texts, ∃ front back, text.toList = front ++ c :: back ∧ front <:+ before ∧
      back <+: after := by
  induction texts generalizing before with
  | nil => cases before <;> cases h
  | cons text texts ih =>
    rw [String.join_cons, String.toList_append] at h
    -- the character is in a later text, or in the first
    rcases List.append_eq_append_iff.1 h with ⟨middle, hbefore, hrest⟩ | ⟨middle, htext, hrest⟩
    · obtain ⟨other, hother, front, back, heq, hfront, hback⟩ := ih hrest
      refine ⟨other, List.mem_cons_of_mem _ hother, front, back, heq, ?_, hback⟩
      rw [hbefore]
      exact hfront.trans (List.suffix_append _ _)
    · cases middle with
      -- the first text ends right before the character
      | nil =>
        have hjoin : (String.join texts).toList = [] ++ c :: after := hrest.symm
        obtain ⟨other, hother, front, back, heq, hfront, hback⟩ := ih hjoin
        refine ⟨other, List.mem_cons_of_mem _ hother, front, back, heq, ?_, hback⟩
        rw [List.suffix_nil.1 hfront]
        exact List.nil_suffix
      | cons d middle =>
        obtain ⟨rfl, rfl⟩ := List.cons_eq_cons.1 hrest
        exact ⟨text, List.mem_cons_self, before, middle, htext, List.suffix_rfl,
          List.prefix_append _ _⟩

namespace TemplateSet

/-- **All markup in a text is the set's own**: every bracket and quote stands in one of the texts of
the set, with what stands around it there. -/
def OwnsMarkup (set : TemplateSet) (written : String) : Prop :=
  ∀ before c after, written.toList = before ++ c :: after → Text.Html.isMarkup c = true →
    ∃ content ∈ set.contents, ∃ front back, content.toList = front ++ c :: back ∧
      front <:+ before ∧ back <+: after

/-- Markup in texts that are the set's or safe is the set's own. -/
theorem ownsMarkup_join {set : TemplateSet} {texts : List String}
    (h : ∀ text ∈ texts, text ∈ set.contents ∨ Text.Html.IsSafe text.toList) :
    set.OwnsMarkup (String.join texts) := by
  intro before c after heq hmarkup
  obtain ⟨text, htext, front, back, hsplit, hfront, hback⟩ := exists_of_join_eq heq
  rcases h text htext with hcontent | hsafe
  · exact ⟨text, hcontent, front, back, hsplit, hfront, hback⟩
  · have hnone : Text.Html.isMarkup c = false :=
      hsafe.noMarkup c (by rw [hsplit]; exact List.mem_append_right front List.mem_cons_self)
    rw [hnone] at hmarkup
    cases hmarkup

/-- **Sets that were made safe write safe text.** The templates of a set that are named can all be
made safe, in any order and any number of times. As long as the escaper is then bound to its name,
whatever the other functions and the data are, every text that an interpolation of one of these
templates puts is safe. If they are all templates of the set, then all markup in whatever a run
writes, to any sink, and whether it ends or stops, is the set's own. -/
theorem escape_writes_safe_text {set : TemplateSet} {names : List String}
    (h : ∀ name ∈ names, name ∈ set.names) :
    ∃ escaped, set.escapeAll names = .ok escaped ∧
      ∀ env : Env, env.set.templates = escaped.templates →
        env.set.functions.find? htmlEscaperName = some htmlEscaper →
          ∀ depth name,
            env.execute depth name = (env.trace depth name).replay ∧
              (∀ event ∈ (env.trace depth name).events, event.template ∈ names →
                ∀ value, event.action = .puts value →
                  ∀ text, value.output? = some text → Text.Html.IsSafe text.toList) ∧
              ((∀ other ∈ set.names, other ∈ names) →
                (∀ sink, ∃ written,
                  (env.execute depth name).after sink = { sink with held := sink.held ++ written } ∧
                    set.OwnsMarkup written) ∧
                  ∀ text, env.render depth name = .ok text → set.OwnsMarkup text) := by
  have hnone : set.AreEscaped [] := nofun
  obtain ⟨escaped, hescaped, hare, hnames, hcontents⟩ := exists_escapeAll hnone h
  refine ⟨escaped, hescaped, ?_⟩
  intro env htemplates hbound depth name
  have henv : env.set.AreEscaped names := by
    intro other hother root hroot
    rw [template?, htemplates] at hroot
    exact hare other hother root hroot
  refine ⟨env.execute_eq_replay depth name, ?_, ?_⟩
  · intro event hevent htemplate value hputs text htext
    exact Env.isSafe_of_mem_trace henv hbound hevent htemplate hputs htext
  · intro hall
    have henvAll : ∀ other ∈ env.set.names, other ∈ names := by
      intro other hother
      rw [TemplateSet.names, htemplates] at hother
      exact hall other ((hnames other).1 hother)
    have howns : ∀ texts, texts ⊆ (env.trace depth name).outputs →
        set.OwnsMarkup (String.join texts) := by
      intro texts htexts
      apply ownsMarkup_join
      intro text htext
      have hwrite := Env.mem_contents_or_isSafe_of_mem_outputs henv henvAll hbound (htexts htext)
      refine hwrite.imp_left ?_
      rw [contents, htemplates]
      exact (hcontents text).1
    -- for a sink the writes of a prefix of the run, for a rendered text all of them
    constructor
    · intro sink
      obtain ⟨written, hprefix, hsink⟩ := (env.trace depth name).exists_prefix_of_replay sink
      rw [env.execute_eq_replay]
      exact ⟨String.join written, hsink, howns written hprefix.subset⟩
    · intro text htext
      rw [Env.render_eq] at htext
      split at htext
      · cases htext
        exact howns _ (List.Subset.refl _)
      · cases htext

/-- A cell made safe twice: all markup in what it renders is the set's own. -/
theorem cell_made_safe_twice :
    let cell := Node.list ⟨"t", 1⟩ [.text ⟨"t", 1⟩ "<td>",
      .interpolation ⟨"t", 1⟩ (.reference ⟨"t", 1⟩ [])]
    let set := setTemplate ∅ "cell" cell
    (∀ name ∈ ["cell", "cell"], name ∈ set.names) ∧ set.contents = ["<td>"] ∧
      ∃ escaped, set.escapeAll ["cell", "cell"] = .ok escaped ∧
        (escaped.env (.string "<b>")).render 2 "cell" = .ok "<td>&amp;lt;b&amp;gt;" ∧
        set.OwnsMarkup "<td>&amp;lt;b&amp;gt;" := by
  intro cell set
  have hcell : ∀ name ∈ ["cell", "cell"], name ∈ set.names := by decide
  obtain ⟨escaped, hescaped, hsafe⟩ := escape_writes_safe_text hcell
  refine ⟨hcell, by decide, escaped, hescaped, ?_⟩
  cases hescaped
  obtain ⟨-, -, hmarkup⟩ := hsafe (TemplateSet.env _ (.string "<b>")) rfl rfl 2 "cell"
  obtain ⟨-, howns⟩ := hmarkup (by decide)
  refine ⟨?_, howns _ ?_⟩ <;> decide +kernel

end TemplateSet

end Stencil
