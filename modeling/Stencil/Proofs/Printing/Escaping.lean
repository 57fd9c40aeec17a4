import Stencil.Proofs.Printing.Document
import Stencil.TemplateSet.Escaping

/-!
# Escaped sets as they are written

Escaping hands interpolated expressions to one more function and leaves everything else where it is,
so a set that is printable stays printable however often its templates are escaped
(`TemplateSet.IsPrintable.of_escaped`), and what is written for it reads back.
-/

namespace Stencil

namespace Node

variable (function : String)

/-! ### Escaped trees

Escaping changes a tree at its interpolations only. A proper expression has none in it, so the
expressions that a statement carries besides, names and values of blocks, are left as they are. -/

theorem escapeThrough_of_isProper {expr : Node} (h : expr.isProper = true) :
    expr.escapeThrough function = expr :=
  escapeThrough_of_isExpression function (isExpression_of_isProper h)

theorem map_escapeThrough_of_isProper {expr? : Option Node}
    (h : ∀ expr ∈ expr?, expr.isProper = true) : expr?.map (escapeThrough function) = expr? :=
  map_escapeThrough_of_isExpression function fun expr hexpr =>
    isExpression_of_isProper (h expr hexpr)

/-- Text stays text, and nothing else becomes text. -/
@[simp] theorem isText_escapeThrough (node : Node) :
    (node.escapeThrough function).isText = node.isText := by
  cases node <;> rfl

end Node

/-! ### Shape and legibility

A row of statements can be written if it is shaped, and is read back if it is legible. Both are kept
by the induction over the shape: escaping turns a statement into a statement of the same kind, and a
row of statements into one of the same length. The one place where something new is written is an
interpolation, and there it is a call of one argument, which is written as one more stage behind
that argument: what the directive begins with stays. -/

variable {function : String} {nodes : List Node}

/-- The body of a row, escaped, is the body of the escaped row. -/
theorem IsBody.escapeThrough {body : Node} (h : IsBody body nodes) (function : String) :
    IsBody (body.escapeThrough function) (nodes.map (Node.escapeThrough function)) := by
  cases h with
  | only => exact .only _
  | list loc hlength =>
    rw [Node.escapeThrough_list]
    exact .list loc (by rwa [List.length_map])

/-- **Escaping keeps the shape** of a row of statements, if the function it hands them to has an
identifier for its name: with any other name the new call could not be written. -/
theorem Shaped.escapeThrough (h : Shaped nodes) (hfunction : isIdentifier function.toList = true) :
    Shaped (nodes.map (Node.escapeThrough function)) := by
  induction h with
  | nil => exact .nil
  -- two texts must not meet, so the next statement has to stay no text
  | @text loc content nodes hplain hhead _ ih =>
    refine .text hplain ?_ ih
    intro next hnext
    rw [List.head?_map, Option.mem_def, Option.map_eq_some_iff] at hnext
    obtain ⟨node, hnode, rfl⟩ := hnext
    rw [Node.isText_escapeThrough]
    exact hhead node hnode
  -- the only case that puts something in, a call of a function with a proper name
  | @interpolation loc expr nodes hexpr _ ih =>
    refine .interpolation ?_ ih
    simp only [Node.isProper, Node.areProper, hfunction, hexpr, Bool.and_true]
  | inclusion hname hdata _ ih =>
    rw [List.map_cons, Node.escapeThrough_inclusion, Node.escapeThrough_of_isProper function hname,
      Node.map_escapeThrough_of_isProper function hdata]
    exact .inclusion hname hdata ih
  | block hexpr hbody _ _ ihbody ih =>
    rw [List.map_cons, Node.escapeThrough_block, Node.escapeThrough_of_isProper function hexpr]
    exact .block hexpr (hbody.escapeThrough function) ihbody ih
  | blockElse hexpr hbody _ helse _ _ ihbody ihelse ih =>
    rw [List.map_cons, Node.escapeThrough_block, Node.escapeThrough_of_isProper function hexpr]
    exact .blockElse hexpr (hbody.escapeThrough function) ihbody (helse.escapeThrough function)
      ihelse ih

/-- **Escaping keeps a row as legible as it is**: the call of one argument that it makes is written
behind that argument, so what leads an interpolation stays. -/
theorem Shaped.areLegible_escapeThrough (h : Shaped nodes) (function : String) :
    Node.areLegible (nodes.map (Node.escapeThrough function)) = Node.areLegible nodes := by
  induction h with
  | nil => rfl
  | text _ _ _ ih =>
    rw [List.map_cons, Node.escapeThrough_text, Node.areLegible, Node.areLegible, ih]
  | interpolation _ _ ih =>
    -- the new call has one argument, so the old expression still comes first
    rw [List.map_cons, Node.escapeThrough_interpolation, Node.areLegible, Node.areLegible, ih]
    rfl
  | inclusion _ _ _ ih =>
    rw [List.map_cons, Node.escapeThrough_inclusion, Node.areLegible, Node.areLegible, ih]
    rfl
  | block _ hbody _ _ ihbody ih =>
    rw [List.map_cons, Node.escapeThrough_block, Node.areLegible, Node.areLegible, ih,
      Option.map_none, Node.isLegible, Node.isLegible, (hbody.escapeThrough function).isLegible_eq,
      ihbody, hbody.isLegible_eq]
  | blockElse _ hbody _ helse _ _ ihbody ihelse ih =>
    rw [List.map_cons, Node.escapeThrough_block, Node.areLegible, Node.areLegible, ih,
      Option.map_some, Node.isLegible, Node.isLegible, (hbody.escapeThrough function).isLegible_eq,
      ihbody, hbody.isLegible_eq, (helse.escapeThrough function).isLegible_eq, ihelse,
      helse.isLegible_eq]

namespace TemplateSet

/-- **A set that can be written and read back**: its trees are shaped, so that there is a source
form for each, and legible, so that no directive of that form is taken for another. -/
structure IsPrintable (set : TemplateSet) : Prop where
  /-- its trees can be written -/
  shaped : set.IsShaped
  /-- they are written legibly -/
  legible : set.isLegible = true

/-- **Sets that escaping makes** of a set, template after template, through functions that have
identifiers for names. The same template may be escaped again, and each time through another
function. -/
inductive Escaped (set : TemplateSet) : TemplateSet → Prop
  /-- the set itself -/
  | refl : Escaped set set
  /-- one more template is escaped -/
  | escape {last next : TemplateSet} {template name : String} {function : HostFunction} :
    Escaped set last →
    isIdentifier name.toList = true →
    last.escapeWith template name function = .ok next →
    Escaped set next

variable {set last next : TemplateSet} {template name : String} {function : HostFunction}

/-- **What escaping does to the entries of a set**: each is an old one, or the escaped one. So what
holds of every old tree, and is kept by `escapeThrough`, holds of every new tree. -/
theorem exists_of_mem_escapeWith (h : set.escapeWith template name function = .ok next)
    {entry : String × Node} (hentry : entry ∈ next.templates.entries) :
    entry ∈ set.templates.entries ∨ ∃ root, (template, root) ∈ set.templates.entries ∧
      entry = (template, root.escapeThrough name) := by
  rw [escapeWith] at h
  split at h
  · cases h
  · next root hroot =>
    cases h
    have hmem : (template, root) ∈ set.templates.entries :=
      ((NameMap.holds_entries set.templates).find?_eq_some_iff template root).1 hroot
    rcases Entries.mem_of_mem_insert hentry with rfl | hold
    · exact .inr ⟨root, hmem, rfl⟩
    · exact .inl hold

/-- **A printable set stays printable** when a template is escaped. -/
theorem IsPrintable.escapeWith (hset : set.IsPrintable) (hname : isIdentifier name.toList = true)
    (h : set.escapeWith template name function = .ok next) : next.IsPrintable where
  shaped entry hentry := by
    rcases exists_of_mem_escapeWith h hentry with hold | ⟨root, hroot, rfl⟩
    · exact hset.shaped entry hold
    · obtain ⟨row, hbody, hrow⟩ := hset.shaped _ hroot
      exact ⟨_, hbody.escapeThrough name, hrow.escapeThrough hname⟩
  legible := by
    apply List.all_eq_true.2
    intro entry hentry
    have hlegible := List.all_eq_true.1 hset.legible
    rcases exists_of_mem_escapeWith h hentry with hold | ⟨root, hroot, rfl⟩
    · exact hlegible entry hold
    -- the escaped tree: as legible as the old one, row for row
    · obtain ⟨row, hbody, hrow⟩ := hset.shaped _ hroot
      have hlegibleRoot : root.isLegible = true := hlegible _ hroot
      rw [(hbody.escapeThrough name).isLegible_eq, hrow.areLegible_escapeThrough,
        ← hbody.isLegible_eq, hlegibleRoot]

/-- **A printable set stays printable** however it is escaped, by induction on the number of times
it is. -/
theorem IsPrintable.of_escaped (hset : set.IsPrintable) (h : Escaped set last) :
    last.IsPrintable := by
  induction h with
  | refl => exact hset
  | escape _ hname hescape ih => exact ih.escapeWith hname hescape

/-- **What is written for a printable set reads back**, also after escaping: the names are the same,
and under each name is the same tree but for locations. Names of templates and literals may hold any
characters. -/
theorem exists_reads_back_of_isPrintable (hset : set.IsPrintable) (h : Escaped set last)
    (src : String) :
    ∃ again, ofSource src last.sourceText none = .ok again ∧ again.names = last.names ∧
      ∀ name, (again.template? name).map Node.unlocated
        = (last.template? name).map Node.unlocated := by
  obtain ⟨hshaped, hlegible⟩ := hset.of_escaped h
  obtain ⟨again, hread, hsame⟩ := exists_ofSource_of_isLegible hshaped hlegible src
  exact ⟨again, hread, hsame.names_eq, hsame.template?_eq⟩

/-- A greeting reads back after it was escaped, from under a name with quotes in it. -/
theorem escaped_greeting_reads_back :
    let row := [Node.text ⟨"hi", 1⟩ "Hi ",
      .interpolation ⟨"hi", 1⟩ (.reference ⟨"hi", 1⟩ ["name"])]
    let set := setTemplate ∅ "say \"hi\"" (.list ⟨"hi", 1⟩ row)
    IsPrintable set ∧ ∃ last, set.escapeWith "say \"hi\"" "html" htmlEscaper = .ok last ∧
      ∃ again, ofSource "copy" last.sourceText none = .ok again ∧
        again.names = ["say \"hi\""] := by
  intro row set
  -- the text has no braces, and no text follows it
  have hrow : Shaped row := by
    refine .text ⟨by decide, ?_, by decide⟩ (by rintro next ⟨⟩; rfl) (.interpolation rfl .nil)
    simp [noBraces_cons_iff, noBraces_nil]
  have hset : IsPrintable set := by
    refine ⟨fun entry hentry => ?_, by decide⟩
    obtain rfl := List.mem_singleton.1 hentry
    exact ⟨_, .list _ (by decide), hrow⟩
  obtain ⟨last, hescape, hlast⟩ : ∃ last,
      set.escapeWith "say \"hi\"" "html" htmlEscaper = .ok last ∧ last.names = ["say \"hi\""] :=
    ⟨_, rfl, by decide⟩
  obtain ⟨again, hread, hnames, -⟩ :=
    exists_reads_back_of_isPrintable hset (.escape .refl (by decide) hescape) "copy"
  exact ⟨hset, last, hescape, again, hread, hnames.trans hlast⟩

end TemplateSet

end Stencil
