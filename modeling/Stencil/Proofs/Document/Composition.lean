import Mathlib.Data.List.Nodup
import Stencil.Proofs.Document.Errors
import Stencil.Proofs.Document.Moved
import Stencil.Proofs.Printing.Document

/-!
# Sources of definitions one after the other

Text that is definitions stays so wherever it stands, and two such texts can be put one after the
other, whatever blank text meets at the seam (`Defines.append_normalized`). So sources of
definitions are read together as they are read alone, if no name is defined by both; otherwise the
first definition of the second source whose name is taken is to blame
(`TemplateSet.sources_compose`).
-/

namespace Stencil

open Text (newlines)

/-! ### Text that defines templates

A source cannot be cut at its seam as it stands: line endings that meet there become one, and blank
text from both sides becomes one segment. `Defines` is stable under both. It is about text, not
segments, with blank text of any length between definitions, and it forgets lines, so it is closed
under appending. -/

/-- **Text that defines templates**, with blank text among the definitions. The trees have no lines,
so it may stand anywhere. -/
inductive Defines (src : String) : List Char → List (String × Node) → Prop
  /-- nothing is defined -/
  | nil : Defines src [] []
  /-- blank text defines nothing -/
  | blank {cs code : List Char} {trees : List (String × Node)} :
    Text.isBlank cs = true → Defines src code trees → Defines src (cs ++ code) trees
  /-- a definition, from its directive to its `end` -/
  | definition {line : Nat} {text code : List Char} {segments : List Segment} {name : String}
      {tree : Node} {trees : List (String × Node)} :
    Dissects line text segments [] → Definitions src segments [.definition name tree] →
    Defines src code trees → Defines src (text ++ code) ((name, tree.unlined) :: trees)

variable {src : String} {line : Nat} {code : List Char} {trees others : List (String × Node)}

/-- A definition begins and ends with a directive. -/
theorem Definitions.exists_directives {segments : List Segment} {name : String} {tree : Node}
    (h : Definitions src segments [.definition name tree]) :
    ∃ opening inside closing, segments = opening :: (inside ++ [closing]) ∧
      opening.kind = .directive ∧ closing.kind = .directive := by
  cases h with
  | definition hheading _ _ hend hrest =>
    cases hrest
    exact ⟨_, _, _, rfl, Segment.kind_eq_directive hheading nofun, hend.kind_eq⟩

namespace Defines

/-- **Texts that define templates**, one after the other, define the templates of both, in that
order. The seam is between two directives or in blank text, where nothing else can come to be. -/
theorem append {more : List Char} (h : Defines src code trees) (hmore : Defines src more others) :
    Defines src (code ++ more) (trees ++ others) := by
  induction h with
  | nil => exact hmore
  | blank hblank _ ih =>
    rw [List.append_assoc]
    exact .blank hblank ih
  | definition hdissects hdefinition _ ih =>
    rw [List.append_assoc]
    exact .definition hdissects hdefinition ih

/-- A line feed at the beginning defines nothing. -/
theorem of_cons_feed (h : Defines src ('\n' :: code) trees) : Defines src code trees := by
  generalize hwhole : '\n' :: code = whole at h
  induction h generalizing code with
  | nil => cases hwhole
  | @blank cs rest trees hblank hrest ih =>
    cases cs with
    | nil => exact ih hwhole
    | cons c cs =>
      obtain ⟨rfl, rfl⟩ := List.cons.inj hwhole
      refine .blank ?_ hrest
      rw [Text.isBlank, List.all_cons, Bool.and_eq_true] at hblank
      exact hblank.2
  | definition hdissects hdefinition _ _ =>
    -- a directive begins with a brace
    obtain ⟨opening, inside, closing, rfl, hopening, -⟩ := hdefinition.exists_directives
    obtain ⟨interior, htext, -⟩ :=
      (hdissects.isFirst opening List.mem_cons_self hopening).complete.exists_closes
    rw [← hdissects.append_eq, segmentsText_cons, htext] at hwhole
    cases hwhole

/-- **Two sources meet at a seam**: what they define alone they define together, whatever becomes of
the line endings that meet. -/
theorem append_normalized {as bs : List Char} (h : Defines src (Text.normalize as) trees)
    (hmore : Defines src (Text.normalize bs) others) :
    Defines src (Text.normalize (as ++ bs)) (trees ++ others) := by
  rcases Text.normalize_append as bs with hseam | ⟨ds, hds, hseam⟩
  · rw [hseam]
    exact h.append hmore
  · rw [hseam]
    rw [hds] at hmore
    exact h.append hmore.of_cons_feed

/-- **Text that defines templates is cut into definitions**, wherever it begins: only the lines are
different. -/
theorem exists_definitions (h : Defines src code trees) (line : Nat) :
    ∃ segments items, Dissects line code segments [] ∧ Definitions src segments items ∧
      unlinedTrees (entries items) = trees := by
  induction h generalizing line with
  | nil => exact ⟨[], [], .nil, .nil, rfl⟩
  | @blank cs code trees hblank _ ih =>
    by_cases hne : cs = []
    · subst hne
      exact ih line
    obtain ⟨segments, items, hdissects, hdefinitions, hsame⟩ := ih (line + newlines cs)
    -- blank text grows together with the blank text behind it
    cases hdefinitions with
    | nil =>
      exact ⟨_, _, hdissects.blank_cons hne hblank nofun,
        .blank ((Segment.isBlank_iff _).2 ⟨rfl, hblank⟩) .nil, hsame⟩
    | @blank segment rest items hsegment hrest =>
      obtain ⟨-, htext⟩ := (Segment.isBlank_iff segment).1 hsegment
      refine ⟨_, _, hdissects.blank_append hblank hsegment, .blank ?_ hrest, hsame⟩
      refine (Segment.isBlank_iff _).2 ⟨rfl, ?_⟩
      rw [Text.isBlank_append, hblank, htext]
      rfl
    | definition hheading hname hinside hend hrest =>
      refine ⟨_, _, hdissects.blank_cons hne hblank ?_,
        .blank ((Segment.isBlank_iff _).2 ⟨rfl, hblank⟩)
          (.definition hheading hname hinside hend hrest), hsame⟩
      rintro first ⟨⟩
      exact Segment.kind_eq_directive hheading nofun
  | @definition start text code segments name tree trees hdissects hdefinition _ ih =>
    obtain ⟨more, items, hmore, hdefinitions, hsame⟩ := ih (line + newlines text)
    let move (n : Nat) : Nat := n - start + line
    -- the definition was cut on some lines of its own, and is moved to those it comes to here
    have hmoved : Dissects line text (segments.map (Segment.moved move)) [] := by
      refine hdissects.moved fun n => ?_
      simp only [move]
      omega
    obtain ⟨moved, hagain, htree⟩ := hdefinition.exists_moved move
    refine ⟨_, _, hmoved.append hmore ?_, hagain.append hdefinitions, ?_⟩
    · obtain ⟨opening, inside, closing, rfl, -, hclosing⟩ := hdefinition.exists_directives
      have hends : (opening :: (inside ++ [closing])).map (Segment.moved move)
          = (opening :: inside).map (Segment.moved move) ++ [closing.moved move] := by simp
      rw [hends, List.getLast?_concat]
      rintro last ⟨⟩
      exact hclosing
    · rw [entries_append, unlinedTrees_append, htree, hsame]
      rfl

end Defines

/-- **Definitions are text that defines their templates.** -/
theorem Definitions.defines {segments : List Segment} {items : List Item}
    (h : Definitions src segments items) (hdissects : Dissects line code segments []) :
    Defines src code (unlinedTrees (entries items)) := by
  induction h generalizing line code with
  | nil =>
    obtain rfl : [] = code := hdissects.append_eq
    exact .nil
  | @blank segment rest items hblank _ ih =>
    have htail := ih hdissects.tail
    rw [← hdissects.append_eq, segmentsText_cons, List.append_assoc]
    exact .blank ((Segment.isBlank_iff segment).1 hblank).2 htail
  | @definition opening closing content loc name inside rest body items hheading hname hinside hend
      _ ih =>
    have hwhole : opening :: (inside ++ closing :: rest)
        = opening :: (inside ++ [closing]) ++ rest := by simp
    rw [hwhole] at hdissects
    have hrest := ih hdissects.drop
    rw [← hdissects.append_eq, segmentsText_append, List.append_assoc]
    exact .definition hdissects.of_append (.definition hheading hname hinside hend .nil) hrest

/-! ### The names that a source defines

Which name is to blame is the first shared one in the order of the second source. A set has its
names in another order, so the order is taken from the segments of the source. -/

/-- **The name that a segment defines**, if it begins a definition. It can be told from the segment
alone. -/
def Segment.definedName? (src : String) (segment : Segment) : Option String :=
  match segment.heading with
  | .define content =>
    match Expr.read src content segment.line with
    | .ok (.literal _ name) => some name
    | _ => none
  | _ => none

/-- **The names that a source defines**, in its order. They are read off its segments, so they are
there also if the source is refused for what it defines. -/
def definedNames (src code : String) : List String :=
  match Segmentation.ofSource src (Text.normalize code.toList) with
  | .ok cut => cut.segments.filterMap (Segment.definedName? src)
  | .error _ => []

theorem Segment.IsEnd.definedName?_eq {segment : Segment} (h : segment.IsEnd) (src : String) :
    segment.definedName? src = none := by
  obtain ⟨content, hheading, -⟩ := h
  simp only [definedName?, hheading]

theorem Segment.IsElse.definedName?_eq {segment : Segment} (h : segment.IsElse) (src : String) :
    segment.definedName? src = none := by
  obtain ⟨content, hheading, -⟩ := h
  simp only [definedName?, hheading]

/-- Statements define no names. -/
theorem Statements.definedNames_eq {segments : List Segment} {nodes : List Node}
    (h : Statements src segments nodes) : segments.filterMap (Segment.definedName? src) = [] := by
  induction h with
  | nil => rfl
  | text hheading _ ih | interpolation hheading _ _ ih | inclusion hheading _ _ ih =>
    rw [List.filterMap_cons_none (by simp only [Segment.definedName?, hheading]), ih]
  | block hheading _ _ hend _ ihbody ih =>
    rw [List.filterMap_cons_none (by simp only [Segment.definedName?, hheading]),
      List.filterMap_append, ihbody, List.filterMap_cons_none (hend.definedName?_eq src), ih]
    rfl
  | blockElse hheading _ _ helse _ hend _ ihbody ihelse ih =>
    rw [List.filterMap_cons_none (by simp only [Segment.definedName?, hheading]),
      List.filterMap_append, ihbody, List.filterMap_cons_none (helse.definedName?_eq src),
      List.filterMap_append, ihelse, List.filterMap_cons_none (hend.definedName?_eq src), ih]
    rfl

/-- **Definitions define their names**, in the order of the source. -/
theorem Definitions.definedNames_eq {segments : List Segment} {items : List Item}
    (h : Definitions src segments items) :
    segments.filterMap (Segment.definedName? src) = (entries items).map Prod.fst := by
  induction h with
  | nil => rfl
  | @blank segment rest items hblank _ ih =>
    have hnone : segment.definedName? src = none := by
      obtain ⟨hkind, -⟩ := (Segment.isBlank_iff segment).1 hblank
      simp only [Segment.definedName?, Segment.heading, hkind]
    rw [List.filterMap_cons_none hnone, ih]
    rfl
  | @definition opening closing content loc name inside rest body items hheading hname hinside hend
      _ ih =>
    have hsome : opening.definedName? src = some name := by
      simp only [Segment.definedName?, hheading, hname]
    rw [List.filterMap_cons_some hsome, List.filterMap_append, hinside.definedNames_eq,
      List.filterMap_cons_none (hend.definedName?_eq src), ih]
    rfl

/-! ### A name that is taken

Up to the first name that is taken the definitions are read and added, and the map holds them; at
that name the reader stops. -/

section Taken

open DocumentReader

variable {m : NameMap Node} {done before after : List (String × Node)} {name : String} {tree : Node}

/-- A definition whose name is taken is read, and then refused. -/
theorem Statements.exists_redefinition {opening closing : Segment} {content : List Char}
    {loc : Location} {inside : List Segment} {body : List Node}
    (hinside : Statements src inside body)
    (hname : Expr.read src content opening.line = .ok (.literal loc name))
    (hend : closing.IsEnd) (htaken : m.contains name = true) (endLine : Nat) (rest : List Segment) :
    ∃ last, (⟨src, endLine, opening :: (inside ++ closing :: rest), m⟩ :
        DocumentReader).readDefinition opening.line content (inside ++ closing :: rest)
      = (.error (.malformed ⟨src, opening.line⟩ (.redefinition name)), last) := by
  simp only [readDefinition, hname, withRest, readBody, read_of_isEnd hinside hend, htaken, if_true,
    errorAt]
  exact ⟨_, rfl⟩

/-- **The first definition whose name is taken** ends the reading of the definitions. All before it
have new names, and are read and stored. -/
theorem Definitions.exists_redefinition {taken : List Segment} {items : List Item}
    (h : Definitions src taken items) (endLine : Nat) (hm : m.Holds done)
    (hentries : entries items = before ++ (name, tree) :: after)
    (hnodup : ((done ++ before).map Prod.fst).Nodup)
    (htaken : name ∈ (done ++ before).map Prod.fst) :
    ∃ line last, (⟨src, endLine, taken, m⟩ : DocumentReader).readDefinitions
      = (.error (.malformed ⟨src, line⟩ (.redefinition name)), last) := by
  induction h generalizing m done before with
  | nil => simp [entries] at hentries
  | blank hblank _ ih =>
    rw [readDefinitions_blank hblank]
    exact ih hm hentries hnodup htaken
  | @definition opening closing content loc other inside rest body items hheading hname hinside hend
      _ ih =>
    rw [entries_definition] at hentries
    -- the definition to blame comes first, or behind others that are added
    cases before with
    | nil =>
      obtain ⟨hfirst, -⟩ := List.cons.inj hentries
      obtain ⟨rfl, -⟩ := Prod.mk.inj hfirst
      rw [List.append_nil, ← hm.contains_iff] at htaken
      obtain ⟨last, hread⟩ := hinside.exists_redefinition hname hend htaken endLine rest
      exact ⟨_, last, readDefinitions_define_error hheading hread⟩
    | cons first before =>
      obtain ⟨rfl, hrest⟩ := List.cons.inj hentries
      have hfresh : m.contains other = false := hm.contains_eq_false hnodup
      rw [readDefinitions_define hheading (readDefinition_eq_ok_iff.2
        ⟨loc, other, inside, closing, rest, body, hname, rfl, hinside, hend, hfresh, rfl⟩)]
      rw [List.append_cons] at hnodup htaken
      exact ih (hm.insert hfresh _) hrest hnodup htaken

end Taken

/-! ### Whole sources -/

namespace TemplateSet

variable {code a b : String} {set first second : TemplateSet} {name : String}

/-- **The trees of a set, up to lines**, by different names. The order of the list is that of a
source and does not show in the set. -/
structure HasTrees (set : TemplateSet) (trees : List (String × Node)) : Prop where
  /-- no name is given twice -/
  nodup : (trees.map Prod.fst).Nodup
  /-- under each name is the tree that was given for it -/
  lookup_eq : ∀ name, (set.template? name).map Node.unlined = trees.lookup name

/-- A set that holds templates has their trees. -/
theorem hasTrees_unlinedTrees (h : set.templates.Holds trees) :
    set.HasTrees (unlinedTrees trees) where
  nodup := by
    rw [map_fst_unlinedTrees]
    exact h.nodup
  lookup_eq name := by rw [template?, h.find?_eq_lookup, unlinedTrees, Entries.lookup_map]

/-- The names of a set are those of its trees. -/
theorem HasTrees.mem_names_iff (h : set.HasTrees trees) (name : String) :
    name ∈ set.names ↔ name ∈ trees.map Prod.fst := by
  rw [← not_iff_not, ← template?_eq_none_iff, ← Option.map_eq_none_iff, h.lookup_eq,
    List.lookup_eq_none_iff, List.mem_map]
  constructor
  · rintro hnone ⟨tree, hmem, rfl⟩
    exact absurd (hnone tree hmem) (by simp)
  · intro hnone tree hmem
    exact bne_iff_ne.2 fun hname => hnone ⟨tree, hmem, hname.symm⟩

/-- **A source of definitions defines the templates of its set**, in its order, and those are the
names that it is seen to define. -/
theorem exists_defines_of_ofSource (h : ofSource src code none = .ok set) :
    ∃ trees, Defines src (Text.normalize code.toList) trees ∧ set.HasTrees trees ∧
      definedNames src code = trees.map Prod.fst := by
  obtain ⟨segments, items, hsegments, hdocument, hholds⟩ := exists_document_of_ofSource h
  cases hdocument with
  | definitions hdefinitions =>
    have hdissects := dissects_of_segments hsegments
    obtain ⟨all, hall, hsame⟩ := hdefinitions.exists_of_dropTrailingBlank hdissects
    refine ⟨unlinedTrees (entries items), ?_, hasTrees_unlinedTrees hholds, ?_⟩
    · rw [← hsame]
      exact hall.defines hdissects
    · rw [definedNames, Segmentation.ofSource_eq, hsegments, map_fst_unlinedTrees,
        ← hdefinitions.definedNames_eq]
      rfl

/-- **Text that defines templates with different names is read**, and the set has them. -/
theorem exists_ofSource_of_defines (h : Defines src (Text.normalize code.toList) trees)
    (hnodup : (trees.map Prod.fst).Nodup) :
    ∃ set, ofSource src code none = .ok set ∧ set.HasTrees trees := by
  obtain ⟨segments, items, hdissects, hdefinitions, rfl⟩ := h.exists_definitions 1
  obtain ⟨kept, hkept, hsame⟩ := hdefinitions.exists_dropTrailingBlank hdissects
  rw [map_fst_unlinedTrees] at hnodup
  rw [← hsame] at hnodup ⊢
  obtain ⟨set, hread, hholds⟩ :=
    exists_ofSource_of_document (hdissects.segments_eq_ok src) (.definitions hkept) hnodup
  exact ⟨set, hread, hasTrees_unlinedTrees hholds⟩

/-- **Text that defines a name again is not read**: its first such definition is to blame, whatever
comes behind it. -/
theorem exists_ofSource_redefinition {before after : List (String × Node)} {tree : Node}
    (h : Defines src (Text.normalize code.toList) (before ++ (name, tree) :: after))
    (hnodup : (before.map Prod.fst).Nodup) (htaken : name ∈ before.map Prod.fst) :
    ∃ line, ofSource src code none = .error (.malformed ⟨src, line⟩ (.redefinition name)) := by
  obtain ⟨segments, items, hdissects, hdefinitions, hentries⟩ := h.exists_definitions 1
  obtain ⟨kept, hkept, hsame⟩ := hdefinitions.exists_dropTrailingBlank hdissects
  rw [← hsame] at hentries
  -- the trees without lines are split where the entries with lines are
  obtain ⟨earlier, others, hsplit, rfl, hothers⟩ := List.map_eq_append_iff.1 hentries
  obtain ⟨⟨other, root⟩, later, rfl, hname, -⟩ := List.map_eq_cons_iff.1 hothers
  obtain rfl : other = name := (Prod.mk.inj hname).1
  rw [← unlinedTrees, map_fst_unlinedTrees] at hnodup htaken
  obtain ⟨line, last, hread⟩ := hkept.exists_redefinition
    (1 + newlines (Text.normalize code.toList)) NameMap.holds_empty hsplit hnodup htaken
  refine ⟨line, ?_⟩
  rw [ofSource_eq, Splitter.ofSource, hdissects.segments_eq_ok src, Except.bind,
    DocumentReader.read, DocumentReader.ofSegments, hread]
  rfl

/-- Normalized text is that of both codes, up to their seam. -/
theorem defines_append (ha : Defines src (Text.normalize a.toList) trees)
    (hb : Defines src (Text.normalize b.toList) others) :
    Defines src (Text.normalize (a ++ b).toList) (trees ++ others) := by
  rw [String.toList_append]
  exact ha.append_normalized hb

/-- Sources with different names are read together. -/
theorem exists_ofSource_append (ha : Defines src (Text.normalize a.toList) trees)
    (hb : Defines src (Text.normalize b.toList) others) (hfirst : first.HasTrees trees)
    (hsecond : second.HasTrees others) (hapart : ∀ name ∈ first.names, name ∉ second.names) :
    ∃ both, ofSource src (a ++ b) none = .ok both ∧ ∀ name,
      (both.template? name).map Node.unlined
        = ((first.template? name).map Node.unlined).or
            ((second.template? name).map Node.unlined) := by
  have hnodup : ((trees ++ others).map Prod.fst).Nodup := by
    rw [List.map_append, List.nodup_append]
    refine ⟨hfirst.nodup, hsecond.nodup, ?_⟩
    rintro name hname _ hother rfl
    exact hapart name ((hfirst.mem_names_iff name).2 hname) ((hsecond.mem_names_iff name).2 hother)
  obtain ⟨both, hread, hboth⟩ := exists_ofSource_of_defines (defines_append ha hb) hnodup
  refine ⟨both, hread, fun name => ?_⟩
  rw [hboth.lookup_eq, List.lookup_append, hfirst.lookup_eq, hsecond.lookup_eq]

/-- **Sources of definitions compose.** Let two sources be read without a name from outside. If no
name is defined by both, the one followed by the other is read too, in either order. The trees are
then those of both sets, up to lines, and the two orders give the same trees. If some name is
defined by both, the two together are not read: the error is that a name is defined again, and that
name is the first of those that the second source defines, in its order, that the first source
defines as well. -/
theorem sources_compose (ha : ofSource src a none = .ok first)
    (hb : ofSource src b none = .ok second) :
    ((∀ name ∈ first.names, name ∉ second.names) →
      ∃ both reversed, ofSource src (a ++ b) none = .ok both ∧
        ofSource src (b ++ a) none = .ok reversed ∧
        ∀ name,
          (both.template? name).map Node.unlined
            = ((first.template? name).map Node.unlined).or
                ((second.template? name).map Node.unlined) ∧
          (reversed.template? name).map Node.unlined = (both.template? name).map Node.unlined) ∧
    (definedNames src b).Perm second.names ∧
    ((∃ name ∈ first.names, name ∈ second.names) →
      ∃ name e, (definedNames src b).find? (· ∈ first.names) = some name ∧
        ofSource src (a ++ b) none = .error e ∧
        (∃ line, e = .malformed ⟨src, line⟩ (.redefinition name)) ∧
        e.explanation = "Redefinition of " ++ Text.quoted name) := by
  obtain ⟨trees, hdefines, hfirst, -⟩ := exists_defines_of_ofSource ha
  obtain ⟨others, hothers, hsecond, hnames⟩ := exists_defines_of_ofSource hb
  refine ⟨fun hapart => ?_, ?_, ?_⟩
  · obtain ⟨both, hread, hboth⟩ := exists_ofSource_append hdefines hothers hfirst hsecond hapart
    obtain ⟨reversed, hback, hreversed⟩ := exists_ofSource_append hothers hdefines hsecond hfirst
      fun name hsecond hfirst => hapart name hfirst hsecond
    refine ⟨both, reversed, hread, hback, fun name => ⟨hboth name, ?_⟩⟩
    rw [hboth, hreversed]
    -- one of the two sets has nothing under the name
    by_cases hname : name ∈ first.names
    · rw [template?_eq_none_iff.2 (hapart name hname), Option.map_none, Option.none_or,
        Option.or_none]
    · rw [template?_eq_none_iff.2 hname, Option.map_none, Option.none_or, Option.or_none]
  · have hnodup : second.names.Nodup := (NameMap.holds_entries second.templates).nodup
    rw [hnames, List.perm_ext_iff_of_nodup hsecond.nodup hnodup]
    exact fun name => (hsecond.mem_names_iff name).symm
  · rintro ⟨shared, hshared, hsharedSecond⟩
    -- the first name of the second source that the first one defines
    obtain ⟨name, hfind⟩ : ∃ name, (definedNames src b).find? (· ∈ first.names) = some name := by
      rw [← Option.isSome_iff_exists, List.find?_isSome]
      refine ⟨shared, ?_, decide_eq_true hshared⟩
      rw [hnames]
      exact (hsecond.mem_names_iff shared).1 hsharedSecond
    obtain ⟨htaken, before, after, hsplit, hfree⟩ := List.find?_eq_some_iff_append.1 hfind
    rw [hnames] at hsplit
    obtain ⟨earlier, rest, rfl, rfl, hrest⟩ := List.map_eq_append_iff.1 hsplit
    obtain ⟨⟨other, tree⟩, later, rfl, rfl, -⟩ := List.map_eq_cons_iff.1 hrest
    have hboth := defines_append hdefines hothers
    rw [← List.append_assoc] at hboth
    -- in front of it no name is defined twice, within a source or across the seam
    have hnodup : ((trees ++ earlier).map Prod.fst).Nodup := by
      have hearlier := hsecond.nodup
      rw [List.map_append, List.nodup_append] at hearlier
      rw [List.map_append, List.nodup_append]
      refine ⟨hfirst.nodup, hearlier.1, ?_⟩
      rintro name hname _ hother rfl
      have hfree := hfree name hother
      simp [(hfirst.mem_names_iff name).2 hname] at hfree
    have hmem : other ∈ (trees ++ earlier).map Prod.fst := by
      rw [List.map_append, List.mem_append]
      exact .inl ((hfirst.mem_names_iff other).1 (of_decide_eq_true htaken))
    obtain ⟨line, hread⟩ := exists_ofSource_redefinition hboth hnodup hmem
    exact ⟨other, _, hfind, hread, ⟨line, rfl⟩, rfl⟩

/-- A carriage return at the end of one source meets a line feed at the beginning of the next; and a
name that is taken is found behind one that is not. -/
theorem letters_compose :
    (∃ both, ofSource "s"
        ("\x7b\x7bdefine 'a'\x7d\x7d1\x7b\x7bend\x7d\x7d\r"
          ++ "\n\x7b\x7bdefine 'b'\x7d\x7d2\x7b\x7bend\x7d\x7d") none = .ok both ∧
      (both.template? "a").map Node.unlined = some (.text ⟨"s", 0⟩ "1") ∧
      (both.template? "b").map Node.unlined = some (.text ⟨"s", 0⟩ "2")) ∧
    ∃ e, ofSource "s"
        ("\x7b\x7bdefine 'a'\x7d\x7d1\x7b\x7bend\x7d\x7d\r"
          ++ ("\x7b\x7bdefine 'c'\x7d\x7d3\x7b\x7bend\x7d\x7d"
            ++ "\x7b\x7bdefine 'a'\x7d\x7d4\x7b\x7bend\x7d\x7d"))
        none = .error e ∧
      e.explanation = "Redefinition of " ++ Text.quoted "a" := by
  obtain ⟨one, hone, hentriesOne⟩ := exists_of_entries_eq
    (show (ofSource "s" "\x7b\x7bdefine 'a'\x7d\x7d1\x7b\x7bend\x7d\x7d\r" none).toOption.map
        (·.templates.entries) = some [("a", .text ⟨"s", 1⟩ "1")] by decide +kernel)
  obtain ⟨two, htwo, hentriesTwo⟩ := exists_of_entries_eq
    (show (ofSource "s" "\n\x7b\x7bdefine 'b'\x7d\x7d2\x7b\x7bend\x7d\x7d" none).toOption.map
        (·.templates.entries) = some [("b", .text ⟨"s", 2⟩ "2")] by decide +kernel)
  obtain ⟨three, hthree, hentriesThree⟩ := exists_of_entries_eq
    (show (ofSource "s" ("\x7b\x7bdefine 'c'\x7d\x7d3\x7b\x7bend\x7d\x7d"
        ++ "\x7b\x7bdefine 'a'\x7d\x7d4\x7b\x7bend\x7d\x7d") none).toOption.map
          (·.templates.entries)
      = some [("a", .text ⟨"s", 1⟩ "4"), ("c", .text ⟨"s", 1⟩ "3")] by decide +kernel)
  constructor
  · have hapart : ∀ name ∈ one.names, name ∉ two.names := by
      simp only [names, NameMap.names, hentriesOne, hentriesTwo]
      decide
    obtain ⟨both, reversed, hboth, -, htrees⟩ := (sources_compose hone htwo).1 hapart
    refine ⟨both, hboth, ?_, ?_⟩
    · rw [(htrees "a").1]
      simp only [template?, NameMap.find?, hentriesOne, hentriesTwo]
      rfl
    · rw [(htrees "b").1]
      simp only [template?, NameMap.find?, hentriesOne, hentriesTwo]
      rfl
  · have hshared : ∃ name ∈ one.names, name ∈ three.names := by
      simp only [names, NameMap.names, hentriesOne, hentriesThree]
      decide
    obtain ⟨name, e, hname, hread, -, hmessage⟩ := (sources_compose hone hthree).2.2 hshared
    obtain rfl : name = "a" := by
      have hmem := List.find?_some hname
      simpa [names, NameMap.names, hentriesOne] using hmem
    exact ⟨e, hread, hmessage⟩

end TemplateSet

end Stencil
