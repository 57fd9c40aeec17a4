import Stencil.Proofs.Document.Outcomes
import Stencil.Proofs.Document.Reading

/-!
# The language of documents

The document reader hands out templates for the segments that are a document whose names are all
different, and for no others. It keeps its templates in a map, so all is said of a map that holds
what the items read so far give (`NameMap.Holds`).
-/

namespace Stencil

/-! ### Maps that hold given entries

The reader puts each template into a map as soon as it has it, and the order of the source is lost
there. `Holds` keeps it beside the map, as a list that grows at its end; it is the invariant of all
that follows. -/

/-- **A map holds some entries**: they have different names, and they are all of the map. The order
in which they are given is not kept. -/
structure NameMap.Holds {α : Type} (m : NameMap α) (entries : List (String × α)) : Prop where
  /-- no name is given twice -/
  nodup : (entries.map Prod.fst).Nodup
  /-- under each name is what was given for it -/
  find?_eq_some_iff : ∀ name value, m.find? name = some value ↔ (name, value) ∈ entries

namespace NameMap

variable {α : Type} {m : NameMap α} {entries : List (String × α)}

theorem holds_empty : (NameMap.empty : NameMap α).Holds [] where
  nodup := List.nodup_nil
  find?_eq_some_iff := by simp

/-- A map holds the entries that it keeps. -/
theorem holds_entries (m : NameMap α) : m.Holds m.entries where
  nodup := by
    refine List.pairwise_map.2 (m.ascending.imp fun {a b} hlt heq => ?_)
    rw [heq] at hlt
    exact String.lt_irrefl _ hlt
  find?_eq_some_iff _ _ := Entries.lookup_eq_some_iff m.ascending

/-- The names of a map are the names that were given. -/
theorem Holds.contains_iff (h : m.Holds entries) (name : String) :
    m.contains name = true ↔ name ∈ entries.map Prod.fst := by
  rw [contains, Option.isSome_iff_exists, List.mem_map]
  constructor
  · rintro ⟨value, hvalue⟩
    exact ⟨(name, value), (h.find?_eq_some_iff name value).1 hvalue, rfl⟩
  · rintro ⟨⟨name, value⟩, hmem, rfl⟩
    exact ⟨value, (h.find?_eq_some_iff name value).2 hmem⟩

/-- A new name is one entry more. -/
theorem Holds.insert (h : m.Holds entries) {name : String} (hname : m.contains name = false)
    (value : α) : (m.insert name value).Holds (entries ++ [(name, value)]) := by
  have hfresh : name ∉ entries.map Prod.fst := by
    rw [← h.contains_iff, hname]
    exact Bool.false_ne_true
  -- the names stay different, and under each name is what was put there
  refine ⟨?_, ?_⟩
  · rw [List.map_append, List.nodup_append]
    refine ⟨h.nodup, by simp, ?_⟩
    rintro other hother _ hmem rfl
    obtain rfl : other = name := by simpa using hmem
    exact hfresh hother
  · intro other kept
    rw [find?_insert, List.mem_append, List.mem_singleton, Prod.mk.injEq]
    split
    · next heq =>
      subst heq
      have hnone : (other, kept) ∉ entries := by
        intro hmem
        exact hfresh (List.mem_map.2 ⟨_, hmem, rfl⟩)
      simp [hnone, eq_comm]
    · next hne => simp [h.find?_eq_some_iff, hne]

/-- Only one map holds given entries. -/
theorem Holds.unique {n : NameMap α} (h : m.Holds entries) (h' : n.Holds entries) : m = n := by
  apply ext_find?
  intro name
  apply Option.ext
  intro value
  rw [h.find?_eq_some_iff, h'.find?_eq_some_iff]

/-- What is held is looked up. -/
theorem Holds.find?_eq_lookup (h : m.Holds entries) (name : String) :
    m.find? name = entries.lookup name := by
  cases hlookup : entries.lookup name with
  | none =>
    rw [List.lookup_eq_none_iff] at hlookup
    refine Option.eq_none_iff_forall_ne_some.2 fun value hvalue => ?_
    have hmem := (h.find?_eq_some_iff name value).1 hvalue
    exact absurd (hlookup _ hmem) (by simp)
  | some value =>
    obtain ⟨before, after, rfl, -⟩ := List.lookup_eq_some_iff.1 hlookup
    exact (h.find?_eq_some_iff name value).2 (by simp)

/-- A name that comes after others is not among them. -/
theorem Holds.contains_eq_false (h : m.Holds entries) {name : String} {value : α}
    {more : List (String × α)} (hnodup : ((entries ++ (name, value) :: more).map Prod.fst).Nodup) :
    m.contains name = false := by
  rw [Bool.eq_false_iff, Ne, h.contains_iff]
  intro hmem
  rw [List.map_append, List.nodup_append] at hnodup
  exact hnodup.2.2 name hmem name List.mem_cons_self rfl

end NameMap

@[simp] theorem entries_append (items others : List Item) :
    entries (items ++ others) = entries items ++ entries others :=
  List.filterMap_append

/-! ### Definitions

For each part of the reader, when it succeeds and with what state. The failures are not needed here,
so the lemmas are equivalences with success on one side. -/

/-- A definition is no blank text. -/
theorem Segment.isBlank_eq_false_of_define {segment : Segment} {content : List Char}
    (h : segment.heading = .define content) : segment.isBlank = false := by
  obtain ⟨kind, text, line⟩ := segment
  cases kind with
  | text => cases h
  | directive => rfl

/-- **Where no definition begins**: at the end of the segments, or before what is neither blank nor
a definition. -/
def AfterDefinitions (rest : List Segment) : Prop :=
  ∀ segment ∈ rest.head?, segment.EndsDefinitions

theorem afterDefinitions_nil : AfterDefinitions [] := nofun

namespace DocumentReader

variable {src : String} {endLine : Nat} {m : NameMap Node}

/-- A body is read under a name that is new. -/
theorem readBody_eq_ok_iff {segments : List Segment} {name : String} {line : Nat}
    {after : DocumentReader} :
    (⟨src, endLine, segments, m⟩ : DocumentReader).readBody name line = (.ok (), after) ↔
      ∃ tree rest, Body.read src endLine segments = .ok (tree, rest) ∧ m.contains name = false ∧
        after = ⟨src, endLine, rest, m.insert name tree⟩ := by
  constructor
  · intro h
    obtain ⟨_, -, hfails⟩ | ⟨tree, rest, hread, ⟨-, hfails⟩ | ⟨hfresh, hadds⟩⟩ :=
      readBody_cases (⟨src, endLine, segments, m⟩ : DocumentReader) name line
    · cases hfails.symm.trans h
    · cases hfails.symm.trans h
    · cases hadds.symm.trans h
      exact ⟨tree, rest, hread, hfresh, rfl⟩
  · rintro ⟨tree, rest, hread, hfresh, rfl⟩
    simp [readBody, hread, hfresh]

/-- What ends a definition is a bare `end`. -/
theorem takeEnd_eq_ok_iff {segments : List Segment} {after : DocumentReader} :
    (⟨src, endLine, segments, m⟩ : DocumentReader).takeEnd = (.ok (), after) ↔
      ∃ closing others, segments = closing :: others ∧ closing.IsEnd ∧
        after = ⟨src, endLine, others, m⟩ := by
  constructor
  · intro h
    obtain ⟨closing, others, hrest, hend, htakes⟩ | ⟨-, hfails⟩ | ⟨_, _, _, -, -, hfails⟩ :=
      takeEnd_cases (⟨src, endLine, segments, m⟩ : DocumentReader)
    · cases htakes.symm.trans h
      exact ⟨closing, others, hrest, hend, rfl⟩
    · cases hfails.symm.trans h
    · cases hfails.symm.trans h
  · rintro ⟨closing, others, rfl, ⟨content, hheading, hblank⟩, rfl⟩
    simp [takeEnd, hheading, hblank, withRest]

/-- A row of statements is read up to the `end` behind it. -/
theorem read_of_isEnd {inside others : List Segment} {closing : Segment} {body : List Node}
    (hinside : Statements src inside body) (hend : closing.IsEnd) :
    Body.read src endLine (inside ++ closing :: others)
      = .ok (bodyTree src (Body.lineOf closing.line inside) body, closing :: others) := by
  refine Body.read_eq_ok_iff.2 ⟨inside, body, rfl, hinside, ?_, by rw [Body.lineOf_append_cons]⟩
  rintro segment ⟨⟩
  obtain ⟨content, hheading, -⟩ := hend
  exact .inr ⟨content, hheading⟩

/-- **What a definition is**: the name, the statements, and the `end`. Everything that the reader
does with one is in this equivalence. -/
theorem readDefinition_eq_ok_iff {segments rest : List Segment} {line : Nat} {content : List Char}
    {after : DocumentReader} :
    (⟨src, endLine, segments, m⟩ : DocumentReader).readDefinition line content rest
        = (.ok (), after) ↔
      ∃ loc name inside closing others body,
        Expr.read src content line = .ok (.literal loc name) ∧
        rest = inside ++ closing :: others ∧ Statements src inside body ∧ closing.IsEnd ∧
        m.contains name = false ∧
        after = ⟨src, endLine, others,
          m.insert name (bodyTree src (Body.lineOf closing.line inside) body)⟩ := by
  constructor
  · intro h
    obtain ⟨_, -, hfails⟩ | ⟨_, -, -, hfails⟩ | ⟨loc, name, hread, hbody⟩ :=
      readDefinition_cases (⟨src, endLine, segments, m⟩ : DocumentReader) line content rest
    · cases hfails.symm.trans h
    · cases hfails.symm.trans h
    obtain ⟨_, _, -, hfails⟩ | ⟨next, hbody, htakes⟩ := hbody
    · cases hfails.symm.trans h
    obtain ⟨tree, stops, hstops, hfresh, rfl⟩ := readBody_eq_ok_iff.1 hbody
    obtain ⟨closing, others, rfl, hend, rfl⟩ := takeEnd_eq_ok_iff.1 (htakes.symm.trans h)
    obtain ⟨inside, body, rfl, hinside, -, rfl⟩ := Body.read_eq_ok_iff.1 hstops
    rw [Body.lineOf_append_cons]
    exact ⟨loc, name, inside, closing, others, body, hread, rfl, hinside, hend, hfresh, rfl⟩
  · rintro ⟨loc, name, inside, closing, others, body, hread, rfl, hinside, hend, hfresh, rfl⟩
    have hreadBody : (⟨src, endLine, inside ++ closing :: others, m⟩ : DocumentReader).readBody
        name line = (.ok (), ⟨src, endLine, closing :: others,
          m.insert name (bodyTree src (Body.lineOf closing.line inside) body)⟩) :=
      readBody_eq_ok_iff.2 ⟨_, _, read_of_isEnd hinside hend, hfresh, rfl⟩
    simp only [readDefinition, hread, withRest, hreadBody]
    exact takeEnd_eq_ok_iff.2 ⟨closing, others, rfl, hend, rfl⟩

/-! ### One item after the other

The loop over definitions, unrolled by one item. It is a recursion on the number of segments, so
these are stated of a list with its first segment shown. -/

variable {segment : Segment} {rest : List Segment}

theorem readDefinitions_blank (h : segment.isBlank = true) :
    (⟨src, endLine, segment :: rest, m⟩ : DocumentReader).readDefinitions
      = (⟨src, endLine, rest, m⟩ : DocumentReader).readDefinitions := by
  rw [readDefinitions]
  simp [h, withRest]

theorem readDefinitions_define {content : List Char} {after : DocumentReader}
    (h : segment.heading = .define content)
    (hread : (⟨src, endLine, segment :: rest, m⟩ : DocumentReader).readDefinition segment.line
      content rest = (.ok (), after)) :
    (⟨src, endLine, segment :: rest, m⟩ : DocumentReader).readDefinitions
      = after.readDefinitions := by
  rw [readDefinitions]
  simp only [Segment.isBlank_eq_false_of_define h, Bool.false_eq_true, if_false]
  split
  · next content' h' =>
    obtain rfl : content = content' := Heading.define.inj (h.symm.trans h')
    split
    · next hread' =>
      rw [hread] at hread'
      cases hread'
    · next hread' =>
      rw [hread] at hread'
      cases hread'
      rfl
  · next hne => exact absurd h (hne content)

theorem exists_readDefinition {content : List Char} {last : DocumentReader}
    (h : segment.heading = .define content)
    (hread : (⟨src, endLine, segment :: rest, m⟩ : DocumentReader).readDefinitions
      = (.ok (), last)) :
    ∃ after, (⟨src, endLine, segment :: rest, m⟩ : DocumentReader).readDefinition segment.line
      content rest = (.ok (), after) ∧ after.readDefinitions = (.ok (), last) := by
  rw [readDefinitions] at hread
  simp only [Segment.isBlank_eq_false_of_define h, Bool.false_eq_true, if_false] at hread
  split at hread
  · next content' h' =>
    obtain rfl : content = content' := Heading.define.inj (h.symm.trans h')
    split at hread
    · cases hread
    · next after hafter => exact ⟨after, hafter, hread⟩
  · next hne => exact absurd h (hne content)

theorem readDefinitions_after (h : AfterDefinitions rest) :
    (⟨src, endLine, rest, m⟩ : DocumentReader).readDefinitions
      = (.ok (), ⟨src, endLine, rest, m⟩) := by
  rw [readDefinitions]
  cases rest with
  | nil => rfl
  | cons segment rest =>
    obtain ⟨hblank, hdefine⟩ := h segment rfl
    simp only [hblank, Bool.false_eq_true, if_false]

/-! ### All definitions

Both directions by induction, on the definitions in the one and on the number of segments in the
other, with the entries read so far held by the map. That no name comes twice is what lets the loop
go on, and it is what `Holds` has to say at its end. -/

/-- **Definitions are taken up to what ends them**, if their names are new and different. The map
that the reader begins with may hold something already. -/
theorem exists_readDefinitions {taken : List Segment} {items : List Item}
    (h : Definitions src taken items) {done : List (String × Node)} (hm : m.Holds done)
    (hnodup : ((done ++ entries items).map Prod.fst).Nodup) (hrest : AfterDefinitions rest) :
    ∃ n : NameMap Node, n.Holds (done ++ entries items) ∧
      (⟨src, endLine, taken ++ rest, m⟩ : DocumentReader).readDefinitions
        = (.ok (), ⟨src, endLine, rest, n⟩) := by
  induction h generalizing m done with
  | nil =>
    refine ⟨m, ?_, readDefinitions_after hrest⟩
    rwa [entries, List.filterMap_nil, List.append_nil]
  | blank hblank _ ih =>
    obtain ⟨n, hn, hread⟩ := ih hm hnodup
    exact ⟨n, hn, by rw [List.cons_append, readDefinitions_blank hblank, hread]⟩
  | @definition opening closing content loc name inside others body items hheading hname hinside
      hend _ ih =>
    -- the name is new: it is behind those that the map holds
    have hfresh : m.contains name = false := hm.contains_eq_false hnodup
    have hdefinition : (⟨src, endLine, opening :: (inside ++ closing :: (others ++ rest)), m⟩ :
        DocumentReader).readDefinition opening.line content (inside ++ closing :: (others ++ rest))
          = (.ok (), ⟨src, endLine, others ++ rest,
              m.insert name (bodyTree src (Body.lineOf closing.line inside) body)⟩) :=
      readDefinition_eq_ok_iff.2
        ⟨loc, name, inside, closing, _, body, hname, rfl, hinside, hend, hfresh, rfl⟩
    obtain ⟨n, hn, hread⟩ := ih (hm.insert hfresh _) (by rwa [List.append_assoc])
    rw [List.append_assoc] at hn
    refine ⟨n, hn, ?_⟩
    rw [List.cons_append, List.append_assoc, List.cons_append,
      readDefinitions_define hheading hdefinition, hread]

/-- **What is taken before the definitions end is definitions**, and their names are new and
different. -/
theorem exists_definitions_of_readDefinitions {segments : List Segment} {after : DocumentReader}
    {done : List (String × Node)} (hm : m.Holds done)
    (h : (⟨src, endLine, segments, m⟩ : DocumentReader).readDefinitions = (.ok (), after)) :
    ∃ taken items rest n, segments = taken ++ rest ∧ Definitions src taken items ∧
      AfterDefinitions rest ∧ NameMap.Holds n (done ++ entries items) ∧
      after = ⟨src, endLine, rest, n⟩ := by
  -- on the number of segments: a definition takes as many as its body has, and two more
  induction hlength : segments.length using Nat.strongRecOn generalizing segments m done with
  | ind n ih =>
    subst hlength
    cases segments with
    | nil =>
      rw [readDefinitions_after afterDefinitions_nil] at h
      cases h
      exact ⟨[], [], [], m, rfl, .nil, nofun, by rwa [entries, List.filterMap_nil, List.append_nil],
        rfl⟩
    | cons segment segments =>
      by_cases hblank : segment.isBlank = true
      · rw [readDefinitions_blank hblank] at h
        obtain ⟨taken, items, rest, n, rfl, htaken, hrest, hn, rfl⟩ :=
          ih segments.length (Nat.lt_succ_self _) hm h rfl
        exact ⟨segment :: taken, _ :: items, rest, n, rfl, .blank hblank htaken, hrest, hn, rfl⟩
      by_cases hdefine : ∃ content, segment.heading = .define content
      · obtain ⟨content, hheading⟩ := hdefine
        obtain ⟨reader, hreader, hlast⟩ := exists_readDefinition hheading h
        obtain ⟨loc, name, inside, closing, others, body, hname, rfl, hinside, hend, hfresh, rfl⟩ :=
          readDefinition_eq_ok_iff.1 hreader
        obtain ⟨taken, items, rest, n, rfl, htaken, hrest, hn, rfl⟩ :=
          ih others.length (by grind) (hm.insert hfresh _) hlast rfl
        rw [List.append_assoc] at hn
        exact ⟨segment :: (inside ++ closing :: taken), _ :: items, rest, n, by simp,
          .definition hheading hname hinside hend htaken, hrest, hn, rfl⟩
      -- neither blank nor a definition: nothing is taken
      · have hrest : AfterDefinitions (segment :: segments) := by
          rintro other ⟨⟩
          refine ⟨Bool.eq_false_iff.2 hblank, ?_⟩
          intro content hheading
          exact hdefine ⟨content, hheading⟩
        rw [readDefinitions_after hrest] at h
        cases h
        exact ⟨[], [], segment :: segments, m, rfl, .nil, hrest,
          by rwa [entries, List.filterMap_nil, List.append_nil], rfl⟩

/-! ### Whole documents -/

variable {name? : Option String} {segments : List Segment} {templates : NameMap Node}

/-- **Every document with different names is read**, and its templates are handed out. It is the
half that says the reader is not too strict. -/
theorem exists_read_of_document {items : List Item} (h : Document src name? segments items)
    (hnodup : ((entries items).map Prod.fst).Nodup) :
    ∃ templates, ((ofSegments src segments endLine).read name?).1 = .ok templates ∧
      templates.Holds (entries items) := by
  cases h with
  | definitions hdefinitions =>
    obtain ⟨n, hn, hread⟩ := exists_readDefinitions hdefinitions NameMap.holds_empty hnodup
      afterDefinitions_nil
    rw [List.append_nil] at hread
    refine ⟨n, ?_, hn⟩
    rw [read, ofSegments, hread]
    rfl
  | @named name segments rest first items body hdefinitions hfirst hbody =>
    rw [entries_append] at hnodup ⊢
    have hafter : AfterDefinitions (first :: rest) := by
      rintro segment ⟨⟩
      exact hfirst
    have hnodup' : ((entries items).map Prod.fst).Nodup := by
      rw [List.map_append] at hnodup
      exact (List.nodup_append.1 hnodup).1
    obtain ⟨n, hn, hread⟩ :=
      exists_readDefinitions hdefinitions NameMap.holds_empty hnodup' hafter
    have hfresh : n.contains name = false := hn.contains_eq_false hnodup
    have hends : Body.EndsStatements [] := by rintro segment ⟨⟩
    have htree : Body.read src endLine (first :: rest) = .ok (bodyTree src first.line body, []) :=
      Body.read_eq_ok_iff.2 ⟨first :: rest, body, by simp, hbody, hends, rfl⟩
    -- the body goes up to the end of the segments and is added under its name
    have hnamed : (⟨src, endLine, first :: rest, n⟩ : DocumentReader).readBody name first.line
        = (.ok (), ⟨src, endLine, [], n.insert name (bodyTree src first.line body)⟩) :=
      readBody_eq_ok_iff.2 ⟨_, _, htree, hfresh, rfl⟩
    refine ⟨_, ?_, hn.insert hfresh (bodyTree src first.line body)⟩
    rw [read, ofSegments, hread]
    simp only [readNamed, hnamed]
    rfl

/-- **Only documents are read**, and what is handed out is their templates. It is the half that says
the reader is not too lenient. -/
theorem exists_document_of_read
    (h : ((ofSegments src segments endLine).read name?).1 = .ok templates) :
    ∃ items, Document src name? segments items ∧ templates.Holds (entries items) := by
  obtain ⟨_, _, -, hfails⟩ | ⟨after, hdefinitions, hcall⟩ :=
    read_cases (ofSegments src segments endLine) name?
  · rw [hfails] at h
    cases h
  obtain ⟨taken, items, rest, n, rfl, htaken, hrest, hn, rfl⟩ :=
    exists_definitions_of_readDefinitions NameMap.holds_empty hdefinitions
  rw [List.nil_append] at hn
  obtain ⟨_, _, -, hfails⟩ | ⟨last, hnamed, hread⟩ := hcall
  · rw [hfails] at h
    cases h
  rw [hread] at h
  -- what a body leaves over is an `end` or `else` too many
  obtain ⟨hnone, hout⟩ | ⟨_, _, _, -, hout⟩ := handOut_cases last
  case inr =>
    rw [hout] at h
    cases h
  rw [hout] at h
  cases h
  -- nothing is left: there was no body, or it has taken everything
  obtain ⟨hsame, -⟩ | ⟨first, others, name, hfirst, rfl, hbody⟩ :=
    readNamed_cases (⟨src, endLine, rest, n⟩ : DocumentReader) name?
  · cases hsame.symm.trans hnamed
    obtain rfl : rest = [] := hnone
    rw [List.append_nil]
    exact ⟨items, .definitions htaken, hn⟩
  · obtain rfl : rest = first :: others := hfirst
    obtain ⟨tree, left, htree, hfresh, rfl⟩ := readBody_eq_ok_iff.1 (hbody.symm.trans hnamed)
    obtain rfl : left = [] := hnone
    obtain ⟨inside, body, hinside, hstatements, -, rfl⟩ := Body.read_eq_ok_iff.1 htree
    obtain rfl : inside = first :: others := by simpa using hinside.symm
    refine ⟨_, .named htaken (hrest first rfl) hstatements, ?_⟩
    rw [entries_append]
    exact hn.insert hfresh _

end DocumentReader

/-- **Which segments are read, and as what.** The reader hands out templates if and only if the
segments are a document whose names are all different: blank text and definitions, and then, if a
name is given, perhaps a body under that name. Under each name it hands out the tree that the
document has for it, and nothing else. No segment is lost: the parts of the document, laid out again
in the order of the source, say of every segment what it says by itself. -/
theorem read_accepts_exactly_documents (src : String) (name? : Option String)
    (segments : List Segment) (endLine : Nat) :
    ((∃ templates,
        ((DocumentReader.ofSegments src segments endLine).read name?).1 = .ok templates) ↔
      ∃ items, Document src name? segments items ∧ ((entries items).map Prod.fst).Nodup) ∧
    (∀ templates, ((DocumentReader.ofSegments src segments endLine).read name?).1 = .ok templates →
      ∃ items, Document src name? segments items ∧
        (∀ name tree, templates.find? name = some tree ↔ (name, tree) ∈ entries items) ∧
        segments.map (Segment.piece? src) = (items.flatMap Item.pieces).map some) := by
  refine ⟨⟨?_, ?_⟩, ?_⟩
  · rintro ⟨templates, hread⟩
    obtain ⟨items, hdocument, hholds⟩ := DocumentReader.exists_document_of_read hread
    exact ⟨items, hdocument, hholds.nodup⟩
  · rintro ⟨items, hdocument, hnodup⟩
    obtain ⟨templates, hread, -⟩ := DocumentReader.exists_read_of_document hdocument hnodup
    exact ⟨templates, hread⟩
  · intro templates hread
    obtain ⟨items, hdocument, hholds⟩ := DocumentReader.exists_document_of_read hread
    exact ⟨items, hdocument, hholds.find?_eq_some_iff, hdocument.pieces_eq⟩

end Stencil
