import Mathlib.Data.List.Forall2
import Stencil.Proofs.Document.Moved
import Stencil.Proofs.Expr.Closing
import Stencil.Proofs.Printing.Document
import Stencil.Proofs.Run.Extension
import Stencil.Proofs.Run.Locations

/-!
# Flat templates

A flat template is text with expressions in between. Its output is the text as it stands, with the
values of the expressions in their places (`flat_templates_render`). All that is lost is blank text
at either end, and if nothing else is there, so is the template.
-/

namespace Stencil

open Text (newlines)

/-- **A part of a flat template.** Parts are given as they stand in the source, before anything of
them is read. -/
inductive FlatPart
  /-- text that stands as it is -/
  | text (content : List Char)
  /-- an expression, which stands between braces -/
  | expression (content : List Char)
  deriving DecidableEq, Repr

namespace FlatPart

/-- The characters of a part, braces included. -/
def source : FlatPart → List Char
  | .text content => content
  | .expression content => Node.directive content

/-- The kind of segment that a part is. -/
def kind : FlatPart → SegmentKind
  | .text _ => .text
  | .expression _ => .directive

/-- Whether a part is text that holds white space only. -/
def isBlank : FlatPart → Bool
  | .text content => Text.isBlank content
  | .expression _ => false

/-- **What a part comes to** on some data: text to itself, an expression to the output of its value,
which is nothing for null. No functions are registered. Where an expression cannot be read or has no
value the part comes to nothing, but of such parts nothing is claimed. -/
def output (name : String) (data : Value) : FlatPart → String
  | .text content => String.ofList content
  | .expression content =>
    match Expr.read name content 1 with
    | .error _ => ""
    | .ok expr =>
      match evaluate ((∅ : TemplateSet).env data) expr with
      | .error _ => ""
      | .ok value => value.output?.getD ""

end FlatPart

/-- **The source of a flat template**: its parts as they stand, one behind the other. -/
def flatSource (parts : List FlatPart) : List Char :=
  parts.flatMap FlatPart.source

/-- **Parts of a flat template**, which can be told from one another in its source, and whose
expressions can be read. -/
structure IsFlat (name : String) (parts : List FlatPart) : Prop where
  /-- there is no carriage return -/
  noReturn : '\r' ∉ flatSource parts
  /-- no text is empty -/
  ne_nil : .text [] ∉ parts
  /-- no directive begins in text -/
  noBraces : ∀ content, .text content ∈ parts → NoBraces content
  /-- no text stands beside text -/
  apart : ∀ content other, ¬ [.text content, .text other] <:+: parts
  /-- text ends with a brace only where nothing follows -/
  noJoin : ∀ content next, [.text content, next] <:+: parts → content.getLast? ≠ some '{'
  /-- what stands between braces is an expression -/
  isExpression : ∀ content, .expression content ∈ parts →
    ∃ expr, Expr.read name content 1 = .ok expr
  /-- which does not begin with a word that announces something else -/
  noKeyword : ∀ content, .expression content ∈ parts →
    ∀ entry ∈ headings, afterWord? entry.1 content = none

/-- The parts without a first one that is blank text. -/
def dropBlankHead : List FlatPart → List FlatPart
  | [] => []
  | first :: rest => if first.isBlank then rest else first :: rest

/-- **What remains of a flat template**: its parts without a first and a last one that are blank
text. -/
def trimmed (parts : List FlatPart) : List FlatPart :=
  (dropBlankHead (dropBlankHead parts).reverse).reverse

/-! ### Segments

A flat template is cut into its parts again. That is what the conditions of `IsFlat` are for: text
is never empty, holds no beginning of a directive and does not stand beside text, and no text gives
its last brace to the directive behind it. They pass to any stretch of parts, so the induction is on
the parts, from the front. -/

/-- The segments of a flat template that begins on a line. -/
def flatSegments : Nat → List FlatPart → List Segment
  | _, [] => []
  | line, part :: parts =>
    ⟨part.kind, part.source, line⟩ :: flatSegments (line + newlines part.source) parts

@[simp] theorem flatSource_nil : flatSource [] = [] := rfl

@[simp] theorem flatSource_cons (part : FlatPart) (parts : List FlatPart) :
    flatSource (part :: parts) = part.source ++ flatSource parts := rfl

theorem flatSegments_append (line : Nat) (parts others : List FlatPart) :
    flatSegments line (parts ++ others)
      = flatSegments line parts ++ flatSegments (line + newlines (flatSource parts)) others := by
  induction parts generalizing line with
  | nil => rfl
  | cons part parts ih =>
    rw [List.cons_append, flatSegments, flatSegments, ih, flatSource_cons, Text.newlines_append,
      List.cons_append, Nat.add_assoc]

/-- A part is blank as a segment. -/
theorem isBlank_segment (part : FlatPart) (line : Nat) :
    (Segment.mk part.kind part.source line).isBlank = part.isBlank := by
  cases part with
  | text => rfl
  | expression => rfl

namespace IsFlat

variable {name : String} {parts others : List FlatPart} {part : FlatPart}

/-- Parts of a flat template that stand side by side are one by themselves. -/
theorem of_isInfix (h : IsFlat name parts) (hothers : others <:+: parts) : IsFlat name others where
  noReturn := by
    intro hreturn
    obtain ⟨part, hpart, hreturn⟩ := List.mem_flatMap.1 hreturn
    exact h.noReturn (List.mem_flatMap.2 ⟨part, hothers.subset hpart, hreturn⟩)
  ne_nil hmem := h.ne_nil (hothers.subset hmem)
  noBraces content hmem := h.noBraces content (hothers.subset hmem)
  apart content other hpair := h.apart content other (hpair.trans hothers)
  noJoin content next hpair := h.noJoin content next (hpair.trans hothers)
  isExpression content hmem := h.isExpression content (hothers.subset hmem)
  noKeyword content hmem := h.noKeyword content (hothers.subset hmem)

theorem tail (h : IsFlat name (part :: parts)) : IsFlat name parts :=
  h.of_isInfix (List.suffix_cons part parts).isInfix

/-- What follows text is an expression. -/
theorem kind_next {content : List Char} {next : FlatPart}
    (h : IsFlat name (.text content :: next :: parts)) : next.kind = .directive := by
  cases next with
  | text other => exact absurd ⟨[], parts, rfl⟩ (h.apart content other)
  | expression => rfl

/-- **A flat template is cut into its parts**, each of them a segment on the line it begins on. -/
theorem dissects (h : IsFlat name parts) (line : Nat) :
    Dissects line (flatSource parts) (flatSegments line parts) [] := by
  induction parts generalizing line with
  | nil => exact .nil
  | cons part parts ih =>
    have hrest := ih h.tail (line + newlines part.source)
    rw [flatSource_cons, flatSegments]
    cases part with
    -- the braces close behind the expression and not in it, as it could be read
    | expression content =>
      obtain ⟨expr, hread⟩ := h.isExpression content List.mem_cons_self
      have hsource : (FlatPart.expression content).source ≠ [] := List.cons_ne_nil _ _
      refine hrest.cons hsource (fun hkind => ?_) fun _ => ?_
      · cases hkind
      · exact (Expr.closed_of_read hread).isFirstDirective
    -- text goes on up to the braces of the next part, or to the end
    | text content =>
      have hne : content ≠ [] := by
        rintro rfl
        exact h.ne_nil List.mem_cons_self
      refine hrest.cons hne (fun _ => ⟨h.noBraces content List.mem_cons_self, ?_, ?_⟩)
        fun hkind => ?_
      · intro hmore
        cases parts with
        | nil => exact absurd rfl hmore
        | cons next parts => exact h.noJoin content next ⟨[], parts, rfl⟩
      · intro next hnext
        cases parts with
        | nil => cases hnext
        | cons other parts =>
          cases hnext
          exact h.kind_next
      · cases hkind

end IsFlat

/-! ### Statements

Each part is one statement. An expression is read on the line it stands on and not on the first one,
as the conditions say, so the trees are compared up to lines; the value does not depend on them. -/

/-- **What a part is read as**: text, or the interpolation of its expression, up to lines. The
location of the node is left open. -/
inductive FlatPart.Means (name : String) : FlatPart → Node → Prop
  /-- text -/
  | text (loc : Location) (content : List Char) :
    Means name (.text content) (.text loc (String.ofList content))
  /-- an interpolation -/
  | expression (loc : Location) {content : List Char} {expr same : Node} :
    Expr.read name content 1 = .ok expr → same.unlined = expr.unlined →
    Means name (.expression content) (.interpolation loc same)

namespace IsFlat

variable {name : String} {parts : List FlatPart}

/-- What the expressions of a flat template announce is an interpolation. -/
theorem heading_expression (h : IsFlat name parts) {content : List Char}
    (hmem : .expression content ∈ parts) (line : Nat) :
    (Segment.mk .directive (Node.directive content) line).heading = .interpolation content := by
  rw [heading_directive, ofInterior_eq_interpolation (h.noKeyword content hmem)]

/-- **The parts of a flat template are statements**, as many as there are parts, and each is what
its part means. -/
theorem exists_statements (h : IsFlat name parts) (line : Nat) :
    ∃ nodes, Statements name (flatSegments line parts) nodes ∧
      List.Forall₂ (FlatPart.Means name) parts nodes := by
  induction parts generalizing line with
  | nil => exact ⟨[], .nil, .nil⟩
  | cons part parts ih =>
    obtain ⟨nodes, hnodes, hmeans⟩ := ih h.tail (line + newlines part.source)
    cases part with
    | text content => exact ⟨_, .text rfl hnodes, .cons (.text _ content) hmeans⟩
    | expression content =>
      obtain ⟨expr, hread⟩ := h.isExpression content List.mem_cons_self
      obtain ⟨same, hagain, hsame⟩ := Expr.exists_read_on_line hread line
      exact ⟨_, .interpolation (h.heading_expression List.mem_cons_self line) hagain hnodes,
        .cons (.expression _ hread hsame) hmeans⟩

end IsFlat

/-! ### What remains

The reader passes over blank text before a template, and blank text at the end is dropped. As no
text stands beside text, this is at most one part at either end, and behind it comes an expression
or text that is not blank. -/

/-- A first part that is dropped is blank. -/
theorem exists_dropBlankHead (parts : List FlatPart) :
    ∃ lead? : Option FlatPart, parts = lead?.toList ++ dropBlankHead parts ∧
      ∀ lead ∈ lead?, lead.isBlank = true := by
  cases parts with
  | nil => exact ⟨none, rfl, nofun⟩
  | cons first rest =>
    rw [dropBlankHead]
    split
    · next hblank =>
      refine ⟨some first, rfl, ?_⟩
      rintro lead ⟨⟩
      exact hblank
    · exact ⟨none, rfl, nofun⟩

/-- Behind a first part that is dropped no other is blank, as no text stands beside text. -/
theorem isBlank_head_dropBlankHead {parts : List FlatPart}
    (h : ∀ content other, ¬ [.text content, .text other] <:+: parts) :
    ∀ first ∈ (dropBlankHead parts).head?, first.isBlank = false := by
  intro first hfirst
  cases parts with
  | nil => cases hfirst
  | cons part parts =>
    rw [dropBlankHead] at hfirst
    split at hfirst
    · next hblank =>
      obtain ⟨rest, rfl⟩ := List.head?_eq_some_iff.1 hfirst
      cases part with
      | expression => cases hblank
      | text content =>
        cases first with
        | expression => rfl
        | text other => exact absurd ⟨[], rest, rfl⟩ (h content other)
    · next hblank =>
      cases hfirst
      exact Bool.eq_false_iff.2 hblank

/-- **A flat template is what remains of it**, with at most one blank part at either end. What
remains neither begins nor ends with a blank part. -/
theorem IsFlat.exists_trimmed {name : String} {parts : List FlatPart} (h : IsFlat name parts) :
    ∃ lead? trail? : Option FlatPart,
      parts = lead?.toList ++ (trimmed parts ++ trail?.toList) ∧
      (∀ lead ∈ lead?, lead.isBlank = true) ∧ (∀ trail ∈ trail?, trail.isBlank = true) ∧
      (∀ first ∈ (trimmed parts).head?, first.isBlank = false) ∧
      ∀ last ∈ (trimmed parts).getLast?, last.isBlank = false := by
  obtain ⟨lead?, hlead, hleadBlank⟩ := exists_dropBlankHead parts
  obtain ⟨trail?, htrail, htrailBlank⟩ := exists_dropBlankHead (dropBlankHead parts).reverse
  have hrest : dropBlankHead parts = trimmed parts ++ trail?.toList := by
    have hreverse := congrArg List.reverse htrail
    rw [List.reverse_reverse, List.reverse_append] at hreverse
    rw [hreverse, trimmed]
    cases trail? <;> rfl
  have hsuffix : dropBlankHead parts <:+ parts := ⟨lead?.toList, hlead.symm⟩
  refine ⟨lead?, trail?, by rw [← hrest]; exact hlead, hleadBlank, htrailBlank, ?_, ?_⟩
  · intro first hfirst
    obtain ⟨rest, htrimmed⟩ := List.head?_eq_some_iff.1 hfirst
    refine isBlank_head_dropBlankHead h.apart first ?_
    rw [hrest, htrimmed]
    rfl
  -- the last part by turning the row round: still no text beside text
  · intro last hlast
    rw [trimmed, List.getLast?_reverse] at hlast
    refine isBlank_head_dropBlankHead (fun content other hpair => ?_) last hlast
    have hback : [.text other, .text content] <:+: dropBlankHead parts := by
      simpa using List.reverse_infix.2 hpair
    exact h.apart other content (hback.trans hsuffix.isInfix)

/-! ### The document

What remains is the body of the template, on whatever line it begins. Where nothing remains the
source is read all the same, but there is no body and so no template: the run is what fails. -/

namespace IsFlat

variable {name : String} {parts : List FlatPart}

/-- The source of a flat template is cut as it stands. -/
theorem segments_eq (h : IsFlat name parts) :
    (Splitter.ofSource name (Text.normalize (String.ofList (flatSource parts)).toList)).segments
      = .ok (flatSegments 1 parts) := by
  rw [String.toList_ofList, Text.normalize_eq_self h.noReturn]
  exact (h.dissects 1).segments_eq_ok name

/-- A flat template of blank text defines nothing. -/
theorem definitions_of_isBlank {lead? : Option FlatPart} (h : ∀ lead ∈ lead?, lead.isBlank = true)
    (src : String) (line : Nat) :
    ∃ items, Definitions src (flatSegments line lead?.toList) items ∧ entries items = [] := by
  cases lead? with
  | none => exact ⟨[], .nil, rfl⟩
  | some lead => exact ⟨_, .blank ((isBlank_segment lead line).trans (h lead rfl)) .nil, rfl⟩

/-- **Where nothing remains, nothing is kept** of the segments: there was one blank text at most. -/
theorem dropTrailingBlank_eq_nil (h : IsFlat name parts) (hnone : trimmed parts = []) :
    dropTrailingBlank (flatSegments 1 parts) = [] := by
  obtain ⟨lead?, trail?, hparts, hlead, htrail, -, -⟩ := h.exists_trimmed
  rw [hnone, List.nil_append] at hparts
  have hone {part : FlatPart} (hblank : part.isBlank = true) :
      dropTrailingBlank (flatSegments 1 [part]) = [] := by
    have hsegment := (isBlank_segment part 1).trans hblank
    exact dropTrailingBlank_append_of_isBlank hsegment []
  cases lead? with
  | none =>
    cases trail? with
    | none => rw [hparts]; rfl
    | some trail => rw [hparts]; exact hone (htrail trail rfl)
  | some lead =>
    cases trail? with
    | none => rw [hparts]; exact hone (hlead lead rfl)
    | some trail =>
      -- two blank texts would stand side by side
      have hleadBlank := hlead lead rfl
      have htrailBlank := htrail trail rfl
      cases lead with
      | expression => cases hleadBlank
      | text content =>
        cases trail with
        | expression => cases htrailBlank
        | text other => exact absurd (by rw [hparts]; exact List.infix_rfl) (h.apart content other)

/-- **What remains is kept** of the segments, with blank text before it. -/
theorem exists_dropTrailingBlank_eq (h : IsFlat name parts) (hsome : trimmed parts ≠ []) :
    ∃ (lead? : Option FlatPart) (line : Nat), (∀ lead ∈ lead?, lead.isBlank = true) ∧
      dropTrailingBlank (flatSegments 1 parts)
        = flatSegments 1 lead?.toList ++ flatSegments line (trimmed parts) := by
  obtain ⟨lead?, trail?, hparts, hlead, htrail, -, hlast⟩ := h.exists_trimmed
  refine ⟨lead?, 1 + newlines (flatSource lead?.toList), hlead, ?_⟩
  obtain ⟨init, last, htrimmed⟩ := (List.eq_nil_or_concat (trimmed parts)).resolve_left hsome
  have hkept (line : Nat) (lead : List Segment) :
      dropTrailingBlank (lead ++ flatSegments line (trimmed parts))
        = lead ++ flatSegments line (trimmed parts) := by
    refine dropTrailingBlank_eq_self fun segment hsegment => ?_
    rw [htrimmed, List.concat_eq_append, flatSegments_append, ← List.append_assoc, flatSegments,
      flatSegments, List.getLast?_concat] at hsegment
    cases hsegment
    rw [isBlank_segment]
    exact hlast last (by simp [htrimmed])
  conv_lhs => rw [hparts, flatSegments_append, flatSegments_append, ← List.append_assoc]
  cases trail? with
  -- nothing is dropped, as the last part is not blank
  | none =>
    rw [Option.toList_none, flatSegments, List.append_nil]
    exact hkept _ _
  -- the last part is dropped, and no other one behind it
  | some trail =>
    rw [Option.toList_some, flatSegments, flatSegments, dropTrailingBlank_append_of_isBlank
      ((isBlank_segment trail _).trans (htrail trail rfl))]
    exact hkept _ _

/-- **A flat template of which nothing remains is no template.** Its source is read, to a set that
has none of its name. -/
theorem exists_ofSource_of_trimmed_eq_nil (h : IsFlat name parts) (hnone : trimmed parts = []) :
    ∃ set, TemplateSet.ofSource name (String.ofList (flatSource parts)) (some name) = .ok set ∧
      set.template? name = none := by
  have hdocument : Document name (some name) (dropTrailingBlank (flatSegments 1 parts)) [] := by
    rw [h.dropTrailingBlank_eq_nil hnone]
    exact .definitions .nil
  obtain ⟨set, hread, hholds⟩ :=
    TemplateSet.exists_ofSource_of_document h.segments_eq hdocument List.nodup_nil
  exact ⟨set, hread, hholds.find?_eq_lookup name⟩

/-- **A flat template is read as the body that its remaining parts mean**, under the name that its
source goes by. -/
theorem exists_ofSource (h : IsFlat name parts) (hsome : trimmed parts ≠ []) :
    ∃ set line nodes, TemplateSet.ofSource name (String.ofList (flatSource parts)) (some name)
        = .ok set ∧
      set.template? name = some (bodyTree name line nodes) ∧
      List.Forall₂ (FlatPart.Means name) (trimmed parts) nodes := by
  obtain ⟨lead?, line, hlead, hkept⟩ := h.exists_dropTrailingBlank_eq hsome
  obtain ⟨_, trail?, hparts, -, -, hfirst, -⟩ := h.exists_trimmed
  have hflat : IsFlat name (trimmed parts) := h.of_isInfix ⟨_, _, by
    rw [List.append_assoc]
    exact hparts.symm⟩
  obtain ⟨items, hitems, hentries⟩ := definitions_of_isBlank hlead name 1
  obtain ⟨nodes, hnodes, hmeans⟩ := hflat.exists_statements line
  obtain ⟨first, rest, htrimmed⟩ := List.exists_cons_of_ne_nil hsome
  rw [htrimmed, flatSegments] at hnodes hkept
  -- what remains begins with no definition, so the reader takes it for the body
  have hends : (Segment.mk first.kind first.source line).EndsDefinitions := by
    refine ⟨(isBlank_segment first line).trans (hfirst first (by rw [htrimmed]; rfl)), ?_⟩
    cases first with
    | text => exact nofun
    | expression content =>
      have hmem : .expression content ∈ trimmed parts := by
        rw [htrimmed]
        exact List.mem_cons_self
      intro content' hheading
      rw [FlatPart.kind, FlatPart.source, hflat.heading_expression hmem] at hheading
      cases hheading
  have hdocument : Document name (some name) (dropTrailingBlank (flatSegments 1 parts))
      (items ++ [.named name (bodyTree name line nodes)]) := by
    rw [hkept]
    exact .named hitems hends hnodes
  have hall : entries (items ++ [.named name (bodyTree name line nodes)])
      = [(name, bodyTree name line nodes)] := by
    rw [entries_append, hentries]
    rfl
  obtain ⟨set, hread, hholds⟩ :=
    TemplateSet.exists_ofSource_of_document h.segments_eq hdocument (by rw [hall]; simp)
  refine ⟨set, line, nodes, hread, ?_, hmeans⟩
  rw [TemplateSet.template?, hholds.find?_eq_lookup, hall, List.lookup_cons_self]

end IsFlat

/-! ### Runs that go through

How often a run writes does not show in its output. `Trace.Writes` joins the texts, so that runs in
a row write the texts of each behind one another. -/

/-- **A run goes through and writes a text**, in any number of writes. -/
structure Trace.Writes (trace : Trace) (text : String) : Prop where
  /-- it does not stop before its end -/
  halt?_eq : trace.halt? = none
  /-- the writes are the text -/
  join_eq : String.join trace.outputs = text

namespace Trace.Writes

variable {trace first second : Trace} {text more : String}

/-- A run that comes to nothing writes nothing. -/
theorem nil : (ending none).Writes "" := ⟨rfl, rfl⟩

/-- One event more writes its text first, if it has one. -/
theorem cons (h : trace.Writes text) (event : Event) :
    (cons event trace).Writes (event.action.output?.getD "" ++ text) where
  halt?_eq := h.halt?_eq
  join_eq := by
    rw [outputs_cons, String.join_append, h.join_eq]
    cases event.action.output? with
    | none => rfl
    | some written =>
      rw [Option.toList_some, String.join_cons, String.join_nil, String.append_empty,
        Option.getD_some]

/-- One run after the other. -/
theorem append (h : first.Writes text) (hmore : second.Writes more) :
    (first.append second).Writes (text ++ more) := by
  have happend : first.append second = ⟨first.events ++ second.events, second.halt?⟩ := by
    rw [Trace.append, h.halt?_eq]
  refine ⟨by rw [happend]; exact hmore.halt?_eq, ?_⟩
  rw [happend, outputs, List.filterMap_append, String.join_append]
  exact congrArg₂ (· ++ ·) h.join_eq hmore.join_eq

end Trace.Writes

theorem Env.render_of_writes {depth : Nat} {env : Env} {name text : String}
    (h : (env.trace depth name).Writes text) : env.render depth name = .ok text := by
  rw [render_eq, h.halt?_eq, h.join_eq]

/-! ### The run

The expressions are evaluated where no functions are registered, and have values there by
assumption. They have the same values in the set of the template, which is larger, and on the lines
where they stand: values depend on neither. -/

section Run

variable {name template : String} {set : TemplateSet} {data : Value} {parts : List FlatPart}

/-- **All expressions of a flat template have values** on some data, where no functions are
registered. -/
def Evaluates (name : String) (data : Value) (parts : List FlatPart) : Prop :=
  ∀ content, .expression content ∈ parts → ∀ expr, Expr.read name content 1 = .ok expr →
    ∃ value, evaluate ((∅ : TemplateSet).env data) expr = .ok value

theorem TemplateSet.empty_isPartOf (set : TemplateSet) : (∅ : TemplateSet).IsPartOf set where
  template? _ _ h := by cases h
  function? _ _ h := by cases h

/-- An expression has its value in all sets, and wherever it stands. -/
theorem evaluate_of_unlined_eq {expr same : Node} {value : Value}
    (h : evaluate ((∅ : TemplateSet).env data) expr = .ok value)
    (hsame : same.unlined = expr.unlined) (set : TemplateSet) :
    evaluate (set.env data) same = .ok value := by
  have hexpr : evaluate (set.env data) expr = .ok value := by
    rcases evaluate_stands set.empty_isPartOf expr with hstands | ⟨e, herror, -⟩
    · exact hstands.trans h
    · rw [h] at herror
      cases herror
  have hunlocated : same.unlocated = expr.unlocated := by
    rw [← Node.unlocated_unlined same, hsame, Node.unlocated_unlined]
  have hvalue : (evaluate (set.env data) same).mapError RunError.unlocated = .ok value := by
    rw [← evaluate_unlocated, hunlocated, evaluate_unlocated, hexpr]
    rfl
  cases heval : evaluate (set.env data) same with
  | error e =>
    rw [heval] at hvalue
    cases hvalue
  | ok other =>
    rw [heval] at hvalue
    exact hvalue

/-- **A part writes what it comes to**, and leaves nothing to run. -/
theorem FlatPart.Means.exists_step {part : FlatPart} {node : Node} (h : part.Means name node)
    (heval : Evaluates name data [part]) (set : TemplateSet) (template : String) :
    ∃ action, Task.step ⟨set.env data, template, node⟩ = .ok (action, []) ∧
      action.output?.getD "" = part.output name data := by
  cases h with
  | text loc content => exact ⟨.writes (String.ofList content), rfl, rfl⟩
  | expression loc hread hsame =>
    obtain ⟨value, hvalue⟩ := heval _ List.mem_cons_self _ hread
    refine ⟨.puts value, ?_, ?_⟩
    · rw [Task.step_interpolation, evaluate_of_unlined_eq hvalue hsame set]
      rfl
    · simp only [output, hread, hvalue, Action.output?]

/-- So does its run. -/
theorem FlatPart.Means.writes {part : FlatPart} {node : Node} (h : part.Means name node)
    (heval : Evaluates name data [part]) (set : TemplateSet) (template : String) (depth : Nat) :
    (Task.trace (depth + 1) ⟨set.env data, template, node⟩).Writes (part.output name data) := by
  obtain ⟨action, hstep, houtput⟩ := h.exists_step heval set template
  have hwrites := Trace.Writes.nil.cons (Task.event ⟨set.env data, template, node⟩ action)
  rw [String.append_empty] at hwrites
  rw [Task.trace, hstep, ← houtput]
  exact hwrites

/-- **Parts in a row write what they come to**, one after the other. -/
theorem writes_of_means {nodes : List Node} (h : List.Forall₂ (FlatPart.Means name) parts nodes)
    (heval : Evaluates name data parts) (set : TemplateSet) (template : String) (depth : Nat) :
    (Trace.concat (nodes.map fun node =>
        Task.trace (depth + 1) ⟨set.env data, template, node⟩)).Writes
      (String.join (parts.map (FlatPart.output name data))) := by
  induction h with
  | nil => exact .nil
  | @cons part node parts nodes hmeans _ ih =>
    have hpart : Evaluates name data [part] := by
      intro content hmem
      rw [List.mem_singleton] at hmem
      exact heval content (by rw [hmem]; exact List.mem_cons_self)
    have hparts : Evaluates name data parts :=
      fun content hmem => heval content (List.mem_cons_of_mem part hmem)
    rw [List.map_cons, List.map_cons, Trace.concat_cons, String.join_cons]
    exact (hmeans.writes hpart set template depth).append (ih hparts)

/-- **The body of a flat template writes what its parts come to.** A list is one level more than a
single part, and two are enough for both. -/
theorem writes_bodyTree {nodes : List Node} (h : List.Forall₂ (FlatPart.Means name) parts nodes)
    (heval : Evaluates name data parts) (set : TemplateSet) (template : String)
    (line depth : Nat) :
    (Task.trace (depth + 2) ⟨set.env data, template, bodyTree name line nodes⟩).Writes
      (String.join (parts.map (FlatPart.output name data))) := by
  rcases bodyTree_cases name line nodes with ⟨only, rfl, honly⟩ | ⟨-, hlist⟩
  · -- a single part stands for itself
    cases h with
    | @cons part _ _ _ hmeans hrest =>
      cases hrest
      rw [honly, List.map_singleton, String.join_cons, String.join_nil, String.append_empty]
      exact hmeans.writes heval set template (depth + 1)
  · rw [hlist, Task.trace]
    simp only [Task.step, List.map_map]
    have hitems := (writes_of_means h heval set template depth).cons
      (Task.event ⟨set.env data, template, .list ⟨name, line⟩ nodes⟩ .lines)
    rw [Task.event, Action.output?, Option.getD_none, String.empty_append] at hitems
    exact hitems

end Run

/-! ### From source to output -/

/-- **Flat templates come to their text**, with the output of the values of their expressions. Let
the source of a flat template be rendered on data on which all its expressions have values where no
functions are registered. A first and a last part that are blank text are lost. If nothing remains
there is no template, and the run fails for that. Otherwise the output is that of what remains, part
by part: text as it stands, and for an expression the output of its value, which is nothing for
null. Two levels are all that this takes. -/
theorem flat_templates_render {name : String} {parts : List FlatPart} {data : Value}
    (h : IsFlat name parts) (heval : Evaluates name data parts) :
    (trimmed parts = [] → ∀ depth,
      renderSource depth name (String.ofList (flatSource parts)) data
        = .error (.halt (.failed (.missingTemplate name)))) ∧
    (trimmed parts ≠ [] → ∀ depth, 2 ≤ depth →
      renderSource depth name (String.ofList (flatSource parts)) data
        = .ok (String.join ((trimmed parts).map (FlatPart.output name data)))) := by
  refine ⟨fun hnone depth => ?_, fun hsome depth hdepth => ?_⟩
  · obtain ⟨set, hread, htemplate⟩ := h.exists_ofSource_of_trimmed_eq_nil hnone
    have htrace : (set.env data).trace depth name
        = .ending (some (.failed (.missingTemplate name))) := Env.trace_of_none htemplate
    rw [renderSource, hread]
    simp only [Env.render_eq, htrace]
    rfl
  · obtain ⟨set, line, nodes, hread, htemplate, hmeans⟩ := h.exists_ofSource hsome
    obtain ⟨more, rfl⟩ := Nat.exists_eq_add_of_le' hdepth
    have hremaining : Evaluates name data (trimmed parts) := by
      intro content hmem
      obtain ⟨lead?, trail?, hparts, -⟩ := h.exists_trimmed
      exact heval content (by rw [hparts]; simp [hmem])
    have hwrites : ((set.env data).trace (more + 2) name).Writes
        (String.join ((trimmed parts).map (FlatPart.output name data))) := by
      rw [Env.trace_of_some htemplate]
      exact writes_bodyTree hmeans hremaining set name line more
    rw [renderSource, hread]
    simp only [Env.render_of_writes hwrites]
    rfl

/-- A greeting, which begins with a line end and ends with a blank. -/
def greeting : List FlatPart :=
  [.text ['\n'], .expression ['.', 't'], .text ['H', 'i', ' '], .expression [' ', '.', 'n', ' '],
    .text [' ']]

/-- Of the greeting what stands between the two remains, with the name in its place and nothing for
the title, which is null. -/
theorem greeting_renders :
    renderSource 2 "t" (String.ofList (flatSource greeting))
      (.object [("n", .string "Ann"), ("t", .null)]) = .ok "Hi Ann" := by
  have htitle : Expr.read "t" ['.', 't'] 1 = .ok (.reference ⟨"t", 1⟩ ["t"]) := by
    decide +kernel
  have hname : Expr.read "t" [' ', '.', 'n', ' '] 1 = .ok (.reference ⟨"t", 1⟩ ["n"]) := by
    decide +kernel
  have hcontent {content : List Char} (hmem : .expression content ∈ greeting) :
      content = ['.', 't'] ∨ content = [' ', '.', 'n', ' '] := by
    simpa [greeting] using hmem
  have hflat : IsFlat "t" greeting := by
    refine ⟨by decide, by decide, ?_, ?_, ?_, fun content hmem => ?_, fun content hmem => ?_⟩
    · simp [greeting, NoBraces, List.infix_cons_iff, List.cons_prefix_cons]
    · simp [greeting, List.infix_cons_iff, List.cons_prefix_cons]
    · intro content next hpair
      simp [greeting, List.infix_cons_iff, List.cons_prefix_cons] at hpair
      rcases hpair with ⟨rfl, -⟩ | ⟨rfl, -⟩ <;> decide
    · rcases hcontent hmem with rfl | rfl
      · exact ⟨_, htitle⟩
      · exact ⟨_, hname⟩
    · rcases hcontent hmem with rfl | rfl <;> decide
  have heval : Evaluates "t" (.object [("n", .string "Ann"), ("t", .null)]) greeting := by
    intro content hmem expr hread
    rcases hcontent hmem with rfl | rfl
    · obtain rfl := Except.ok.inj (htitle.symm.trans hread)
      exact ⟨.null, rfl⟩
    · obtain rfl := Except.ok.inj (hname.symm.trans hread)
      exact ⟨.string "Ann", rfl⟩
  have hremains : trimmed greeting
      = [.expression ['.', 't'], .text ['H', 'i', ' '], .expression [' ', '.', 'n', ' ']] := by
    decide
  rw [(flat_templates_render hflat heval).2 (by decide) 2 (Nat.le_refl 2), hremains]
  simp only [List.map_cons, List.map_nil, FlatPart.output, htitle, hname]
  rfl

end Stencil
