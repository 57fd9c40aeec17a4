import Stencil.Proofs.Document.Language
import Stencil.Proofs.Printing.Body
import Stencil.Render
import Stencil.TemplateSet.Unlocated

/-!
# Sets as they are written

The source form of a set reads back as the set, if all its trees are shaped and legible
(`exists_ofSource_of_isLegible`). If they are shaped and one is not legible, its source form is no
document at all (`ofSource_ne_ok_of_isLegible_eq_false`).
-/

namespace Stencil

open Node (directive)
open Text (Literal.write)

namespace TemplateSet

/-- **The trees of a set can be written**: each is the body of a shaped row of statements. The names
of the templates may be anything. -/
def IsShaped (set : TemplateSet) : Prop :=
  ∀ entry ∈ set.templates.entries, ∃ row, IsBody entry.2 row ∧ Shaped row

/-- **The trees of a set are written legibly**, which can be found out by looking at each of
them. -/
def isLegible (set : TemplateSet) : Bool :=
  set.templates.entries.all fun entry => entry.2.isLegible

end TemplateSet

/-! ### One definition

A definition is a directive with a name, the row of a tree, and an `end`. It has no parts that are
not dealt with already: its name is a literal, so it may hold any characters, and its row is cut, or
breaks, before the directive that ends it. -/

/-- What stands behind the word where a definition begins. -/
def definitionContent (name : String) : List Char :=
  ' ' :: Literal.write name.toList

theorem definitionSource_eq (name : String) (root : Node) :
    TemplateSet.definitionSource name root
      = directive ("define".toList ++ definitionContent name)
          ++ (root.source ++ directive "end".toList) := by
  have hword : "define ".toList = "define".toList ++ [' '] := by decide
  have hinterior := append_space_append hword (Literal.write name.toList)
  calc TemplateSet.definitionSource name root
      = directive ("define ".toList ++ Literal.write name.toList)
          ++ (root.source ++ directive "end".toList) := List.append_assoc ..
    _ = directive ("define".toList ++ definitionContent name)
          ++ (root.source ++ directive "end".toList) := congrArg (directive · ++ _) hinterior

theorem neat_definitionInterior (name : String) :
    Neat ("define".toList ++ definitionContent name) :=
  (neat_word mem_headings_define).append (neat_cons_space (neat_write name.toList))

/-- A written definition announces itself. -/
theorem heading_definition (name : String) (line : Nat) :
    (Segment.mk .directive (directive ("define".toList ++ definitionContent name)) line).heading
      = .define (definitionContent name) := by
  rw [heading_directive, ofInterior_word mem_headings_define rfl]

/-- A written name reads back as that name, whatever characters it holds. -/
theorem exists_read_definitionContent (name src : String) (line : Nat) :
    ∃ loc, Expr.read src (definitionContent name) line = .ok (.literal loc name) := by
  have hproper : (Node.literal default name).isProper = true := rfl
  obtain ⟨expr, hread, hsame⟩ := Expr.exists_read_space_source hproper src line
  cases expr with
  | literal loc value =>
    obtain rfl : value = name := (Node.literal.inj hsame).2
    exact ⟨loc, hread⟩
  | _ => cases hsame

/-- The directive that ends a written definition. -/
def endSegment (line : Nat) : Segment :=
  ⟨.directive, directive "end".toList, line⟩

variable {src : String} {line : Nat} {rest : List Char}

/-- **A written definition is cut into segments that define its tree again**, up to locations. What
it comes to is stated for whatever definitions follow, as only a whole document is derived. -/
theorem exists_cuts_definition {root : Node} {row : List Node} (hbody : IsBody root row)
    (hrow : Shaped row) (hlegible : root.isLegible = true) (name : String) (line : Nat) :
    ∃ segments tree line₁ line₂,
      Cuts src line (TemplateSet.definitionSource name root) (segments ++ [endSegment line₁]) line₂
        rest ∧
      (∀ {more : List Segment} {items : List Item}, Definitions src more items →
        Definitions src (segments ++ [endSegment line₁] ++ more) (.definition name tree :: items)) ∧
      tree.unlocated = root.unlocated := by
  rw [hbody.isLegible_eq] at hlegible
  obtain ⟨loc, hread⟩ := exists_read_definitionContent name src line
  obtain ⟨segments, nodes, line₁, hcuts, hstatements, hsame⟩ :=
    hrow.exists_cuts hlegible closed_end
      (line + Text.newlines (directive ("define".toList ++ definitionContent name)))
  refine ⟨⟨.directive, directive ("define".toList ++ definitionContent name), line⟩ :: segments,
    bodyTree src (Body.lineOf line₁ segments) nodes, line₁,
    line₁ + Text.newlines (directive "end".toList), ?_, ?_, hbody.unlocated_bodyTree hsame⟩
  · rw [definitionSource_eq, hbody.source_eq]
    exact (cuts_directive (neat_definitionInterior name).closed).append
      (.append hcuts (cuts_directive closed_end))
  · intro more items hmore
    rw [List.append_assoc, List.cons_append, List.singleton_append]
    exact .definition (heading_definition name line) hread hstatements (isEnd_directive line₁) hmore

/-- A definition that is not legible breaks. -/
theorem breaks_definition {root : Node} {row : List Node} (hbody : IsBody root row)
    (hrow : Shaped row) (hlegible : root.isLegible = false) (name : String) (line : Nat) :
    Breaks src line (TemplateSet.definitionSource name root ++ rest) := by
  rw [hbody.isLegible_eq] at hlegible
  rw [definitionSource_eq, hbody.source_eq, List.append_assoc, List.append_assoc]
  exact .append (cuts_directive (neat_definitionInterior name).closed)
    (hrow.breaks hlegible closed_end _)

/-! ### All definitions

Definitions stand behind one another with an empty line between any two. Such a line comes out as a
segment of blank text, which a document may have between its definitions, and as the last segment is
an `end`, nothing is dropped behind it. The induction keeps the first definition apart, because the
others are those with an empty line before them. -/

/-- Definitions behind the first one, an empty line before each. -/
def separatedSource (others : List (String × Node)) : List Char :=
  others.flatMap fun (name, root) => ['\n', '\n'] ++ TemplateSet.definitionSource name root

/-- The segment of an empty line. -/
def separatorSegment (line : Nat) : Segment :=
  ⟨.text, ['\n', '\n'], line⟩

/-- An empty line before a definition is one segment. -/
theorem cuts_separator (name : String) (root : Node) :
    Cuts src line ['\n', '\n'] [separatorSegment line] (line + 2)
      (TemplateSet.definitionSource name root ++ rest) := by
  rw [definitionSource_eq, List.append_assoc]
  refine cuts_text (List.cons_ne_nil _ _) ?_ (by decide)
  simp [noBraces_cons_iff, noBraces_nil]

/-- The last segment is more than blank text. -/
def EndsWhole (segments : List Segment) : Prop :=
  ∃ init last, segments = init ++ [last] ∧ last.isBlank = false

theorem EndsWhole.append {more : List Segment} (h : EndsWhole more) (segments : List Segment) :
    EndsWhole (segments ++ more) := by
  obtain ⟨init, last, rfl, hlast⟩ := h
  exact ⟨segments ++ init, last, (List.append_assoc ..).symm, hlast⟩

/-- Where nothing blank comes last, nothing is dropped. -/
theorem EndsWhole.dropTrailingBlank_eq {segments : List Segment} (h : EndsWhole segments) :
    dropTrailingBlank segments = segments := by
  obtain ⟨init, last, rfl, hlast⟩ := h
  simp [dropTrailingBlank, hlast]

/-- **Written definitions are cut into segments that define their trees again**, up to locations,
with the names they had and in the order they had. -/
theorem exists_cuts_definitions {first : String × Node} {others : List (String × Node)}
    (hshaped : ∀ entry ∈ first :: others, ∃ row, IsBody entry.2 row ∧ Shaped row)
    (hlegible : ∀ entry ∈ first :: others, entry.2.isLegible = true) (line : Nat) :
    ∃ segments items line',
      Cuts src line (TemplateSet.definitionSource first.1 first.2 ++ separatedSource others)
        segments line' [] ∧
      Definitions src segments items ∧ EndsWhole segments ∧
      unlocatedTrees (entries items) = unlocatedTrees (first :: others) := by
  induction others generalizing first line with
  | nil =>
    obtain ⟨row, hbody, hrow⟩ := hshaped first List.mem_cons_self
    obtain ⟨segments, tree, line₁, line₂, hcuts, hdefinition, hsame⟩ :=
      exists_cuts_definition hbody hrow (hlegible first List.mem_cons_self) first.1 line
    refine ⟨segments ++ [endSegment line₁] ++ [], _, line₂, ?_, hdefinition .nil, ?_, ?_⟩
    · rw [separatedSource, List.flatMap_nil, List.append_nil, List.append_nil]
      exact hcuts
    · exact ⟨segments, endSegment line₁, by rw [List.append_nil], rfl⟩
    · exact congrArg (fun root => [(first.1, root)]) hsame
  -- the first definition, its empty line, and the others, which come two lines further down
  | cons other others ih =>
    obtain ⟨hfirst, hothers⟩ := List.forall_mem_cons.1 hshaped
    obtain ⟨hfirstLegible, hothersLegible⟩ := List.forall_mem_cons.1 hlegible
    obtain ⟨row, hbody, hrow⟩ := hfirst
    obtain ⟨segments, tree, line₁, line₂, hcuts, hdefinition, hsame⟩ :=
      exists_cuts_definition hbody hrow hfirstLegible first.1 line
    obtain ⟨more, items, line₃, hmore, hdefinitions, hends, hitems⟩ :=
      ih hothers hothersLegible (line₂ + 2)
    have hseparator : Cuts src line₂ ['\n', '\n'] [separatorSegment line₂] (line₂ + 2)
        (TemplateSet.definitionSource other.1 other.2 ++ separatedSource others ++ []) := by
      rw [List.append_nil]
      exact cuts_separator other.1 other.2
    refine ⟨segments ++ [endSegment line₁] ++ ([separatorSegment line₂] ++ more), _, line₃, ?_,
      hdefinition (.blank rfl hdefinitions), (hends.append _).append _, ?_⟩
    · rw [separatedSource, List.flatMap_cons, List.append_assoc, ← separatedSource]
      exact hcuts.append (hseparator.append hmore)
    · show (first.1, tree.unlocated) :: unlocatedTrees (entries items)
        = (first.1, first.2.unlocated) :: unlocatedTrees (other :: others)
      rw [hsame, hitems]

/-- Definitions break where one of them is not legible. -/
theorem breaks_definitions {first : String × Node} {others : List (String × Node)}
    (hshaped : ∀ entry ∈ first :: others, ∃ row, IsBody entry.2 row ∧ Shaped row)
    {lost : String × Node} (hlost : lost ∈ first :: others) (hlegible : lost.2.isLegible = false)
    (line : Nat) :
    Breaks src line
      (TemplateSet.definitionSource first.1 first.2 ++ separatedSource others ++ []) := by
  induction others generalizing first line with
  | nil =>
    obtain ⟨row, hbody, hrow⟩ := hshaped first List.mem_cons_self
    obtain rfl := List.mem_singleton.1 hlost
    rw [List.append_assoc]
    exact breaks_definition hbody hrow hlegible lost.1 line
  | cons other others ih =>
    obtain ⟨⟨row, hbody, hrow⟩, hothers⟩ := List.forall_mem_cons.1 hshaped
    rw [List.append_assoc]
    cases hfirst : first.2.isLegible with
    -- the first one breaks itself, and otherwise it is cut as it stands and one behind it breaks
    | false => exact breaks_definition hbody hrow hfirst first.1 line
    | true =>
      have hmem : lost ∈ other :: others := by
        rcases List.mem_cons.1 hlost with rfl | hmem
        · rw [hfirst] at hlegible
          cases hlegible
        · exact hmem
      obtain ⟨segments, tree, line₁, line₂, hcuts, -⟩ :=
        exists_cuts_definition hbody hrow hfirst first.1 line
      refine .append hcuts ?_
      rw [separatedSource, List.flatMap_cons, List.append_assoc, List.append_assoc]
      refine .append (cuts_separator other.1 other.2) ?_
      rw [← List.append_assoc]
      exact ih hothers hmem (line₂ + 2)

/-! ### Whole sets

The reader makes line endings alike before it cuts. What is written for shaped trees has no carriage
return in it, so it is cut as it stands, and what was said of the source form of the definitions
holds of the source that is read. -/

namespace TemplateSet

variable {set : TemplateSet}

/-- The source form of a set, definition by definition. -/
theorem source_eq {first : String × Node} {others : List (String × Node)}
    (h : set.templates.entries = first :: others) :
    set.source = definitionSource first.1 first.2 ++ separatedSource others := by
  rw [source, h, List.map_cons, flatten_intersperse_cons, List.flatMap_map]
  rfl

theorem return_notMem_directive {inner : List Char} (h : Neat inner) : '\r' ∉ directive inner := by
  simp [directive, h.noReturn]

/-- There is no carriage return in what is written for a row of statements. -/
theorem return_notMem_row {nodes : List Node} (h : Shaped nodes) :
    '\r' ∉ nodes.flatMap Node.source := by
  have hend := return_notMem_directive (neat_word mem_headings_close)
  have helse := return_notMem_directive (neat_word mem_headings_orElse)
  induction h with
  | nil => exact List.not_mem_nil
  | text hplain _ _ ih =>
    rw [List.flatMap_cons, List.mem_append, not_or]
    exact ⟨hplain.noReturn, ih⟩
  | @interpolation loc expr nodes hexpr _ ih =>
    rw [List.flatMap_cons, List.mem_append, not_or]
    exact ⟨return_notMem_directive (neat_source expr hexpr), ih⟩
  | inclusion hname hdata _ ih =>
    rw [List.flatMap_cons, source_inclusion, List.mem_append, not_or]
    exact ⟨return_notMem_directive (neat_inclusionInterior hname hdata), ih⟩
  | @block loc kind expr body inside nodes hexpr hbody _ _ ihbody ih =>
    have hheader := return_notMem_directive (neat_headerInterior kind hexpr)
    rw [List.flatMap_cons, Node.source, hbody.source_eq, ← headerInterior]
    simp only [List.mem_append, not_or]
    exact ⟨⟨⟨hheader, ihbody⟩, hend⟩, ih⟩
  | @blockElse loc kind expr body orElse inside outside nodes hexpr hbody _ horElse _ _ ihbody
      ihelse ih =>
    have hheader := return_notMem_directive (neat_headerInterior kind hexpr)
    rw [List.flatMap_cons, Node.source, hbody.source_eq, horElse.source_eq, ← headerInterior]
    simp only [List.mem_append, not_or]
    exact ⟨⟨⟨⟨⟨hheader, ihbody⟩, helse⟩, ihelse⟩, hend⟩, ih⟩

/-- There is no carriage return in what is written for a definition. -/
theorem return_notMem_definitionSource {root : Node} {row : List Node} (hbody : IsBody root row)
    (hrow : Shaped row) (name : String) : '\r' ∉ definitionSource name root := by
  have hheader := return_notMem_directive (neat_definitionInterior name)
  have hend := return_notMem_directive (neat_word mem_headings_close)
  rw [definitionSource_eq, hbody.source_eq]
  simp only [List.mem_append, not_or]
  exact ⟨hheader, return_notMem_row hrow, hend⟩

/-- There is no carriage return in what is written for a set. -/
theorem return_notMem_source (h : set.IsShaped) : '\r' ∉ set.source := by
  intro hreturn
  rcases mem_flatten_intersperse hreturn with hsep | ⟨text, htext, hreturn⟩
  -- between two definitions there are line feeds only
  · revert hsep
    decide
  · obtain ⟨⟨name, root⟩, hentry, rfl⟩ := List.mem_map.1 htext
    obtain ⟨row, hbody, hrow⟩ := h _ hentry
    exact return_notMem_definitionSource hbody hrow name hreturn

/-- **What is written for a set is cut as it stands**: there is no line ending in it to be made
alike. -/
theorem normalize_sourceText (h : set.IsShaped) :
    Text.normalize set.sourceText.toList = set.source := by
  rw [sourceText, String.toList_ofList, Text.normalize_eq_self (return_notMem_source h)]

/-! ### Sources and documents

Reading a source is cutting it and then reading a document, and a document is read exactly where its
segments derive one (`Document`) with no name twice. With these lemmas the proofs about written sets
stay with cuts and documents, and never go into the reader. -/

variable {src code : String} {name? : Option String}

/-- **How a source is read**: it is cut into segments, and they are read as a document. A source
that cannot be cut is refused before anything is read. -/
theorem ofSource_eq (src code : String) (name? : Option String) :
    ofSource src code name?
      = (Splitter.ofSource src (Text.normalize code.toList)).segments.bind fun segments =>
          ((DocumentReader.ofSegments src (dropTrailingBlank segments)
            (1 + Text.newlines (Text.normalize code.toList))).read name?).1.map (mk .empty) := by
  simp only [ofSource, Segmentation.ofSource_eq]
  cases (Splitter.ofSource src (Text.normalize code.toList)).segments with
  | error e => rfl
  | ok segments =>
    simp only [Except.map, Except.bind]
    split <;> simp_all

/-- **The segments of a source that is read are a document**, and the set has its templates:
whatever holds of documents holds of sources. -/
theorem exists_document_of_ofSource (h : ofSource src code name? = .ok set) :
    ∃ segments items,
      (Splitter.ofSource src (Text.normalize code.toList)).segments = .ok segments ∧
      Document src name? (dropTrailingBlank segments) items ∧
      set.templates.Holds (entries items) := by
  rw [ofSource_eq] at h
  cases hsegments : (Splitter.ofSource src (Text.normalize code.toList)).segments with
  | error e =>
    rw [hsegments] at h
    cases h
  | ok segments =>
    rw [hsegments, Except.bind] at h
    cases hread : ((DocumentReader.ofSegments src (dropTrailingBlank segments)
      (1 + Text.newlines (Text.normalize code.toList))).read name?).1 with
    | error e =>
      rw [hread] at h
      cases h
    | ok templates =>
      rw [hread] at h
      cases h
      obtain ⟨items, hdocument, hholds⟩ := DocumentReader.exists_document_of_read hread
      exact ⟨segments, items, rfl, hdocument, hholds⟩

/-- A source is read if its trees are known. -/
theorem exists_of_entries_eq {trees : List (String × Node)}
    (h : (ofSource src code name?).toOption.map (·.templates.entries) = some trees) :
    ∃ set, ofSource src code name? = .ok set ∧ set.templates.entries = trees := by
  cases hread : ofSource src code name? with
  | error e =>
    rw [hread] at h
    cases h
  | ok set =>
    rw [hread] at h
    exact ⟨set, rfl, Option.some.inj h⟩

/-- **A source whose segments are a document is read**, if all names are different. The set then has
the templates of the document. -/
theorem exists_ofSource_of_document {segments : List Segment} {items : List Item}
    (hsegments : (Splitter.ofSource src (Text.normalize code.toList)).segments = .ok segments)
    (hdocument : Document src name? (dropTrailingBlank segments) items)
    (hnodup : ((entries items).map Prod.fst).Nodup) :
    ∃ set, ofSource src code name? = .ok set ∧ set.templates.Holds (entries items) := by
  obtain ⟨templates, hread, hholds⟩ := DocumentReader.exists_read_of_document hdocument hnodup
  refine ⟨⟨.empty, templates⟩, ?_, hholds⟩
  rw [ofSource_eq, hsegments, Except.bind, hread, Except.map]

/-! ### Reading back

A map of templates is ascending in its names, and the definitions are written in that order. So the
definitions that come back are the entries of the new set as they stand, and comparing them with
those of the old one is all that is left. -/

/-- Entries with the trees of a set, locations aside, are what one map holds. -/
theorem entries_eq_of_holds {templates : NameMap Node} {found : List (String × Node)}
    (h : templates.Holds found)
    (hsame : unlocatedTrees found = unlocatedTrees set.templates.entries) :
    templates.entries = found := by
  -- the found names are those of a map, so they ascend too
  have hascending : Entries.Ascending found := by
    rw [← ascending_unlocatedTrees_iff, hsame, ascending_unlocatedTrees_iff]
    exact set.templates.ascending
  rw [h.unique (NameMap.holds_entries ⟨found, hascending⟩)]

/-- What is written for a legible set is cut into a document with the trees of that set. -/
theorem exists_document_source (hshaped : set.IsShaped) (hlegible : set.isLegible = true)
    (src : String) :
    ∃ segments items, (Splitter.ofSource src set.source).segments = .ok segments ∧
      Document src none (dropTrailingBlank segments) items ∧
      unlocatedTrees (entries items) = unlocatedTrees set.templates.entries := by
  have hlegible' := List.all_eq_true.1 hlegible
  rw [IsShaped] at hshaped
  cases hentries : set.templates.entries with
  -- an empty set is written as nothing, and nothing is a document without definitions
  | nil =>
    have hsource : set.source = [] := by
      rw [source, hentries]
      rfl
    rw [hsource]
    exact ⟨[], [], Splitter.segments_nil, .definitions .nil, rfl⟩
  | cons first others =>
    rw [hentries] at hshaped hlegible'
    obtain ⟨segments, items, line, hcuts, hdefinitions, hends, hsame⟩ :=
      @exists_cuts_definitions src first others hshaped hlegible' 1
    refine ⟨segments, items, ?_, ?_, hsame⟩
    · rw [Cuts, List.append_nil, Splitter.segments_nil, ← source_eq hentries] at hcuts
      rw [Splitter.ofSource, hcuts, Except.map, List.append_nil]
    · rw [hends.dropTrailingBlank_eq]
      exact .definitions hdefinitions

/-- **What is written for a legible set reads back as that set**, locations aside, whether the set
was read before or made by hand. -/
theorem exists_ofSource_of_isLegible (hshaped : set.IsShaped) (hlegible : set.isLegible = true)
    (src : String) :
    ∃ again, ofSource src set.sourceText none = .ok again ∧ SameTrees again set := by
  obtain ⟨segments, items, hsegments, hdocument, hsame⟩ :=
    exists_document_source hshaped hlegible src
  have hnodup : ((entries items).map Prod.fst).Nodup := by
    rw [← map_fst_unlocatedTrees, hsame, map_fst_unlocatedTrees]
    exact (NameMap.holds_entries set.templates).nodup
  rw [← normalize_sourceText hshaped] at hsegments
  obtain ⟨again, hread, hholds⟩ := exists_ofSource_of_document hsegments hdocument hnodup
  exact ⟨again, hread, by rw [SameTrees, entries_eq_of_holds hholds hsame, hsame]⟩

end TemplateSet

/-- What is not blank is not dropped. -/
theorem mem_dropTrailingBlank {segments : List Segment} {segment : Segment}
    (h : segment ∈ segments) (hblank : segment.isBlank = false) :
    segment ∈ dropTrailingBlank segments := by
  rw [← List.mem_reverse,
    ← List.takeWhile_append_dropWhile (p := Segment.isBlank) (l := segments.reverse),
    List.mem_append] at h
  rcases h with h | h
  · rw [List.all_eq_true.1 List.all_takeWhile _ h] at hblank
    cases hblank
  · exact List.mem_reverse.2 h

/-- **Where a source breaks, it is no document**: every segment of a document says something, but
for blank text at its end, and a directive is not blank. -/
theorem Breaks.not_document {src : String} {cs : List Char} {line : Nat} {segments : List Segment}
    (h : Breaks src line cs) (hsegments : (Splitter.mk src cs line).segments = .ok segments)
    (name? : Option String) (items : List Item) :
    ¬ Document src name? (dropTrailingBlank segments) items := by
  intro hdocument
  obtain ⟨before, lost, line', after, hblank, hlost, hbreak⟩ := h
  have hmem : lost ∈ segments := by
    rw [hsegments] at hbreak
    cases hafter : (Splitter.mk src after line').segments with
    | error e =>
      rw [hafter] at hbreak
      cases hbreak
    | ok more =>
      rw [hafter] at hbreak
      rw [Except.ok.inj hbreak]
      simp
  -- the segment that says nothing is still there, but all of a document says something
  have hsays : lost.piece? src ∈ (items.flatMap Item.pieces).map some := by
    rw [← hdocument.pieces_eq]
    exact List.mem_map_of_mem (mem_dropTrailingBlank hmem hblank)
  rw [hlost] at hsays
  simp at hsays

namespace TemplateSet

variable {set : TemplateSet}

/-- **What is written for a set that is not legible is not read back**, as any set: not even a wrong
one comes out, the source is refused. -/
theorem ofSource_ne_ok_of_isLegible_eq_false (hshaped : set.IsShaped)
    (hlegible : set.isLegible = false) (src : String) (again : TemplateSet) :
    ofSource src set.sourceText none ≠ .ok again := by
  intro hread
  obtain ⟨segments, items, hsegments, hdocument, -⟩ := exists_document_of_ofSource hread
  rw [normalize_sourceText hshaped] at hsegments
  -- some tree is not legible, and its definition is where the source breaks
  obtain ⟨lost, hmem, hlost⟩ := List.all_eq_false.1 hlegible
  rw [Bool.not_eq_true] at hlost
  rw [IsShaped] at hshaped
  cases hentries : set.templates.entries with
  | nil =>
    rw [hentries] at hmem
    cases hmem
  | cons first others =>
    rw [hentries] at hshaped hmem
    have hbreaks : Breaks src 1 set.source := by
      rw [source_eq hentries, ← List.append_nil (_ ++ separatedSource others)]
      exact breaks_definitions hshaped hmem hlost 1
    exact hbreaks.not_document hsegments none items hdocument

end TemplateSet

end Stencil
