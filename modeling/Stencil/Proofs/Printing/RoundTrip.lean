import Stencil.Proofs.Printing.Document
import Stencil.Proofs.Run.Locations
import Stencil.Proofs.Segment.Exactness

/-!
# Sets that were read

Everything that comes out of a source can be written again: the expressions of its directives are
proper (`Expr.isProper_of_read`), its text is cut where directives begin (`Dissects.wellCut`),
and so the trees of the set are shaped (`TemplateSet.isShaped_of_ofSource`). Whether the set then
reads back is a matter of its legibility alone.
-/

namespace Stencil

/-! ### Expressions that were read

The reader accepts only what has a derivation, and the names of a derivation are identifiers by
their type. So nothing is checked here: properness is read off the tree that a derivation means, and
lines, which derivations do not know, do not count for it. -/

mutual

/-- Moving an expression does not change its names. -/
theorem Node.isProper_relocate (move : Location → Location) : ∀ expr : Node,
    (expr.relocate move).isProper = expr.isProper
  | .call _ name args => by
    rw [Node.relocate, Node.isProper, Node.isProper, Node.areProper_relocateList move args]
  | .reference .. | .literal .. => rfl
  | .text .. | .interpolation .. | .inclusion .. | .block .. | .list .. => rfl

theorem Node.areProper_relocateList (move : Location → Location) : ∀ exprs : List Node,
    Node.areProper (Node.relocateList move exprs) = Node.areProper exprs
  | [] => rfl
  | expr :: exprs => by
    rw [Node.relocateList, Node.areProper, Node.areProper, Node.isProper_relocate move expr,
      Node.areProper_relocateList move exprs]

end

namespace Expr

variable (src : String)

/-- Handed to identifiers, a proper expression stays proper. -/
theorem isProper_callStages {expr : Node} (h : expr.isProper = true) (stages : List Identifier) :
    (callStages src expr stages).isProper = true := by
  induction stages generalizing expr with
  | nil => exact h
  | cons function stages ih =>
    refine ih ?_
    simp only [Node.isProper, Node.areProper, function.valid, h, Bool.and_true]

mutual

theorem Operand.isProper_tree : ∀ operand : Operand, (operand.tree src).isProper = true
  | .reference path => List.all_eq_true.2 (valid_of_mem_pathNames path)
  | .quoted literal => rfl
  | .call function args => by
    rw [Operand.tree, Node.isProper, function.valid, areProper_treesOf args, Bool.and_true]

/-- **Every derivation means a proper expression**: operands have identifiers for names, and every
stage is a call of an identifier. -/
theorem Pipeline.isProper_tree : ∀ pipeline : Pipeline, (pipeline.tree src).isProper = true
  | .mk operand stages => isProper_callStages src operand.isProper_tree stages

theorem areProper_treesOf : ∀ pipelines : List Pipeline,
    Node.areProper (treesOf src pipelines) = true
  | [] => rfl
  | pipeline :: pipelines => by
    rw [treesOf, Node.areProper, pipeline.isProper_tree, areProper_treesOf pipelines, Bool.and_true]

end

variable {src} {content : List Char} {line : Nat}

/-- An expression that a derivation means is proper, whatever its lines. -/
theorem isProper_of_unlined_eq {expr : Node} {pipeline : Pipeline}
    (h : expr.unlined = pipeline.tree src) : expr.isProper = true := by
  rw [← Node.isProper_relocate, ← Node.unlined, h]
  exact pipeline.isProper_tree src

/-- **What is read is proper.** The reader never makes a name that it could not read again. -/
theorem isProper_of_read {expr : Node} (h : read src content line = .ok expr) :
    expr.isProper = true := by
  obtain ⟨pipeline, -, hexpr⟩ := exists_derives_of_read h
  exact isProper_of_unlined_eq hexpr

/-- **What an inclusion says is proper**, the name and the data. -/
theorem isProper_of_readInclusion {name : Node} {data : Option Node}
    (h : readInclusion src content line = .ok (name, data)) :
    name.isProper = true ∧ ∀ expr ∈ data, expr.isProper = true := by
  obtain ⟨reading, hreading, rfl, hrest⟩ := exists_reading_of_readInclusion h
  obtain ⟨pipeline, taken, -, -, -, hname⟩ := exists_derivation_of_readFirst hreading
  refine ⟨isProper_of_unlined_eq hname, ?_⟩
  intro expr hexpr
  rcases hrest with ⟨-, rfl⟩ | ⟨data, hread, rfl⟩
  · exact absurd hexpr (Option.not_mem_none expr)
  · obtain rfl := Option.mem_some.1 hexpr
    exact isProper_of_read hread

end Expr

/-! ### Segments that were cut

Two facts about the cut of a source become the two conditions that `Shaped` puts on text. Text ends
where braces open, so there are none in it; and it goes on up to there, so no other text is next.
Both hold of every stretch of segments, which is what an induction over the statements of a body
needs. -/

/-- **Segments as they come out of a source**: text is plain, and no text follows text. Any stretch
of them is well cut too (`WellCut.of_isInfix`). -/
structure WellCut (segments : List Segment) : Prop where
  /-- text is plain -/
  plain : ∀ segment ∈ segments, segment.kind = .text → IsPlain segment.text
  /-- behind text comes a directive -/
  apart : ∀ segment next, [segment, next] <:+: segments → segment.kind = .text →
    next.kind = .directive

namespace WellCut

variable {segment : Segment} {segments more : List Segment}

theorem of_isInfix (h : WellCut segments) (hmore : more <:+: segments) : WellCut more where
  plain segment hmem := h.plain segment (hmore.subset hmem)
  apart segment next hpair := h.apart segment next (hpair.trans hmore)

theorem tail (h : WellCut (segment :: segments)) : WellCut segments :=
  h.of_isInfix (List.suffix_cons segment segments).isInfix

/-- What stands before a segment is well cut, and what stands behind it. -/
theorem divide (h : WellCut (segments ++ segment :: more)) : WellCut segments ∧ WellCut more :=
  ⟨h.of_isInfix (List.prefix_append segments _).isInfix,
    (h.of_isInfix (List.suffix_append segments _).isInfix).tail⟩

end WellCut

/-- **A source without carriage returns is well cut.** With carriage returns in it, its text could
not be told from text with the line endings made alike. -/
theorem Dissects.wellCut {line : Nat} {code rest : List Char} {segments : List Segment}
    (h : Dissects line code segments rest) (hreturn : '\r' ∉ code) : WellCut segments where
  plain segment hmem hkind := by
    refine ⟨h.ne_nil segment hmem, h.noBraces segment hmem hkind, fun hin => hreturn ?_⟩
    rw [← h.append_eq]
    exact List.mem_append_left rest (List.mem_flatMap.2 ⟨segment, hmem, hin⟩)
  apart segment next hpair hkind := by
    obtain ⟨before, after, heq⟩ := hpair
    exact h.apart before segment next after (by simp [← heq]) hkind

theorem WellCut.dropTrailingBlank {segments : List Segment} (h : WellCut segments) :
    WellCut (dropTrailingBlank segments) :=
  h.of_isInfix (dropTrailingBlank_isPrefix segments).isInfix

/-! ### Bodies that were read

The induction follows the derivation of the statements, with the segments they were read from well
cut. Each statement takes its segments off the front, and the bodies of a block take theirs from
between two directives, so what is left is well cut again. -/

/-- The tree of a body is the body of its statements. -/
theorem isBody_bodyTree (src : String) (line : Nat) (nodes : List Node) :
    IsBody (bodyTree src line nodes) nodes := by
  rcases bodyTree_cases src line nodes with ⟨only, rfl, -⟩ | ⟨hlength, hlist⟩
  · exact .only only
  · rw [hlist]
    exact .list _ hlength

/-- What announces text is text. -/
theorem Segment.eq_text_of_heading {segment : Segment} {content : List Char}
    (h : segment.heading = .text content) : segment.kind = .text ∧ segment.text = content := by
  obtain ⟨kind, text, line⟩ := segment
  cases kind with
  | text => exact ⟨rfl, Heading.text.inj h⟩
  | directive =>
    -- no word of the table announces text
    have hfound : ∀ entry ∈ headings, ∀ rest, entry.2 rest ≠ .text content := by
      simp [headings]
    rw [heading] at h
    rcases Heading.ofInterior_cases (Segment.mk .directive text line).interior with
      hwhole | ⟨entry, hentry, rest, -, hword⟩
    · simp only [hwhole, reduceCtorEq] at h
    · exact absurd (hword.symm.trans h) (hfound entry hentry rest)

section Read

variable {src : String} {segments : List Segment} {nodes : List Node}

/-- A statement that a directive begins is no text. -/
theorem Statements.isText_head (h : Statements src segments nodes)
    (hdirective : ∀ segment ∈ segments.head?, segment.kind = .directive) :
    ∀ node ∈ nodes.head?, node.isText = false := by
  intro node hnode
  cases h with
  | nil => cases hnode
  | text hheading =>
    have hkind := (Segment.eq_text_of_heading hheading).1
    rw [hdirective _ rfl] at hkind
    cases hkind
  | _ =>
    cases hnode
    rfl

/-- **Statements that were read can be written**: their expressions are proper because they were
read, and their text is plain because it was cut. -/
theorem Statements.shaped (h : Statements src segments nodes) (hcut : WellCut segments) :
    Shaped nodes := by
  induction h with
  | nil => exact .nil
  | @text segment content rest nodes hheading hrest ih =>
    obtain ⟨hkind, rfl⟩ := Segment.eq_text_of_heading hheading
    refine .text ?_ (hrest.isText_head ?_) (ih hcut.tail)
    · rw [String.toList_ofList]
      exact hcut.plain segment List.mem_cons_self hkind
    -- a statement behind text begins with a directive
    · intro next hnext
      obtain ⟨after, rfl⟩ := List.head?_eq_some_iff.1 hnext
      exact hcut.apart segment next ⟨[], after, rfl⟩ hkind
  | interpolation _ hread _ ih => exact .interpolation (Expr.isProper_of_read hread) (ih hcut.tail)
  | inclusion _ hread _ ih =>
    obtain ⟨hname, hdata⟩ := Expr.isProper_of_readInclusion hread
    exact .inclusion hname hdata (ih hcut.tail)
  -- behind the header: the body, the `end`, and what follows
  | block _ hread _ _ _ ihbody ih =>
    obtain ⟨hinside, hrest⟩ := hcut.tail.divide
    exact .block (Expr.isProper_of_read hread) (isBody_bodyTree ..) (ihbody hinside) (ih hrest)
  -- divided at the word of the alternative first, and then at the `end`
  | blockElse _ hread _ _ _ _ _ ihbody ihelse ih =>
    obtain ⟨hinside, hmiddle⟩ := hcut.tail.divide
    obtain ⟨houtside, hrest⟩ := hmiddle.divide
    exact .blockElse (Expr.isProper_of_read hread) (isBody_bodyTree ..) (ihbody hinside)
      (isBody_bodyTree ..) (ihelse houtside) (ih hrest)

/-- **A template that can be written**: its tree is the body of a shaped row, on whatever line that
begins. -/
theorem exists_shaped_of_statements (h : Statements src segments nodes) (hcut : WellCut segments)
    (line : Nat) : ∃ row, IsBody (bodyTree src line nodes) row ∧ Shaped row :=
  ⟨nodes, isBody_bodyTree src line nodes, h.shaped hcut⟩

/-- Definitions that were read can be written. -/
theorem Definitions.shaped {items : List Item} (h : Definitions src segments items)
    (hcut : WellCut segments) :
    ∀ entry ∈ entries items, ∃ row, IsBody entry.2 row ∧ Shaped row := by
  induction h with
  | nil => exact nofun
  | blank _ _ ih => exact ih hcut.tail
  | definition _ _ hbody _ _ ih =>
    obtain ⟨hinside, hrest⟩ := hcut.tail.divide
    exact List.forall_mem_cons.2 ⟨exists_shaped_of_statements hbody hinside _, ih hrest⟩

/-- **A document that was read can be written**: its definitions, and the body behind them where it
has a name from outside. -/
theorem Document.shaped {name? : Option String} {items : List Item}
    (h : Document src name? segments items) (hcut : WellCut segments) :
    ∀ entry ∈ entries items, ∃ row, IsBody entry.2 row ∧ Shaped row := by
  cases h with
  | definitions hdefinitions => exact hdefinitions.shaped hcut
  | @named name segments rest first items body hdefinitions hfirst hbody =>
    intro entry hentry
    rw [entries_append, List.mem_append] at hentry
    rcases hentry with hentry | hentry
    · exact hdefinitions.shaped (hcut.of_isInfix (List.prefix_append _ _).isInfix) entry hentry
    · obtain rfl := List.mem_singleton.1 hentry
      exact exists_shaped_of_statements hbody
        (hcut.of_isInfix (List.suffix_append _ _).isInfix) first.line

end Read

namespace TemplateSet

variable {src code : String} {name? : Option String} {set : TemplateSet}

/-- **A set that was read can be written**, whatever source it was read from, so only its legibility
decides whether that reads back. -/
theorem isShaped_of_ofSource (h : ofSource src code name? = .ok set) : set.IsShaped := by
  obtain ⟨segments, items, hsegments, hdocument, hholds⟩ := exists_document_of_ofSource h
  have hcut : WellCut (dropTrailingBlank segments) :=
    ((dissects_of_segments hsegments).wellCut (Text.return_notMem_normalize _)).dropTrailingBlank
  rintro ⟨name, root⟩ hentry
  have hfind : set.templates.find? name = some root :=
    ((NameMap.holds_entries set.templates).find?_eq_some_iff name root).2 hentry
  exact hdocument.shaped hcut (name, root) ((hholds.find?_eq_some_iff name root).1 hfind)

/-! ### Reading, writing, and reading again

A set that was read is shaped, so both halves about written sets apply to it: legible, it reads back
as itself, and otherwise not at all. There is nothing in between. -/

/-- **When a set that was read reads back.** Written out and read again, a set comes back with the
same names, under each name the same tree but for locations, the same source form, and, given the
same functions, the same output of every template from all data, if and only if its trees are
legible: no text ends with a brace, and no interpolation leads with a keyword. -/
theorem reads_back_iff_isLegible (h : ofSource src code name? = .ok set) (src' : String) :
    (∃ again, ofSource src' set.sourceText none = .ok again ∧ again.names = set.names ∧
      (∀ name, (again.template? name).map Node.unlocated
        = (set.template? name).map Node.unlocated) ∧
      again.sourceText = set.sourceText ∧
      ∀ functions data depth name,
        (((again.withFunctions functions).env data).render depth name).mapError Halt.unlocated
          = (((set.withFunctions functions).env data).render depth name).mapError Halt.unlocated) ↔
      set.isLegible = true := by
  have hshaped := isShaped_of_ofSource h
  constructor
  · rintro ⟨again, hread, -⟩
    rw [← Bool.not_eq_false]
    intro hlegible
    -- a set that is not legible is not read back as any set
    exact ofSource_ne_ok_of_isLegible_eq_false hshaped hlegible src' again hread
  · intro hlegible
    obtain ⟨again, hread, hsame⟩ := exists_ofSource_of_isLegible hshaped hlegible src'
    exact ⟨again, hread, hsame.names_eq, hsame.template?_eq, hsame.sourceText_eq, hsame.render_eq⟩

/-- A greeting reads back. -/
theorem greeting_reads_back :
    ∃ set, ofSource "hi" "Hi {{ .name }}" (some "greeting") = .ok set ∧ set.isLegible = true ∧
      ∃ again, ofSource "copy" set.sourceText none = .ok again ∧ again.names = ["greeting"] := by
  obtain ⟨set, hread, hentries⟩ := exists_of_entries_eq
    (show (ofSource "hi" "Hi {{ .name }}" (some "greeting")).toOption.map (·.templates.entries)
      = some [("greeting", .list ⟨"hi", 1⟩ [.text ⟨"hi", 1⟩ "Hi ",
          .interpolation ⟨"hi", 1⟩ (.reference ⟨"hi", 1⟩ ["name"])])] by decide +kernel)
  have hlegible : set.isLegible = true := by
    rw [isLegible, hentries]
    decide
  obtain ⟨again, hagain, hnames, -⟩ := (reads_back_iff_isLegible hread "copy").2 hlegible
  refine ⟨set, hread, hlegible, again, hagain, ?_⟩
  rw [hnames, names, NameMap.names, hentries]
  rfl

/-- Not all sets that were read read back: a brace at the end of a source joins those of the `end`
that is written behind it, and a function that is named like a block begins one. -/
theorem not_all_read_back :
    (∃ set, ofSource "m" "a\x7b" (some "m") = .ok set ∧
      ∀ src again, ofSource src set.sourceText none ≠ .ok again) ∧
    (∃ set, ofSource "m" "{{ if(.a, .b) }}" (some "m") = .ok set ∧
      ∀ src again, ofSource src set.sourceText none ≠ .ok again) := by
  obtain ⟨brace, hbrace, hbraceEntries⟩ := exists_of_entries_eq
    (show (ofSource "m" "a\x7b" (some "m")).toOption.map (·.templates.entries)
      = some [("m", .text ⟨"m", 1⟩ "a\x7b")] by decide +kernel)
  obtain ⟨keyword, hkeyword, hkeywordEntries⟩ := exists_of_entries_eq
    (show (ofSource "m" "{{ if(.a, .b) }}" (some "m")).toOption.map (·.templates.entries)
      = some [("m", .interpolation ⟨"m", 1⟩ (.call ⟨"m", 1⟩ "if"
          [.reference ⟨"m", 1⟩ ["a"], .reference ⟨"m", 1⟩ ["b"]]))] by decide +kernel)
  have hbraceLegible : brace.isLegible = false := by
    rw [isLegible, hbraceEntries]
    decide
  have hkeywordLegible : keyword.isLegible = false := by
    rw [isLegible, hkeywordEntries]
    decide
  exact
    ⟨⟨brace, hbrace,
        ofSource_ne_ok_of_isLegible_eq_false (isShaped_of_ofSource hbrace) hbraceLegible⟩,
      ⟨keyword, hkeyword,
        ofSource_ne_ok_of_isLegible_eq_false (isShaped_of_ofSource hkeyword) hkeywordLegible⟩⟩

end TemplateSet

end Stencil
