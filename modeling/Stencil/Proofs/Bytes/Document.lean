import Stencil.Proofs.Bytes.Expression

/-!
# Sources by bytes

Reading the templates of a source, with every slice that it takes on the way: those of the cutting,
and those of each directive when the reader comes to it. No slice is ever amiss, so there is always
an answer, and it is that of the reading without slices (`TemplateSet.ofSource?_eq`).
-/

namespace Stencil

open Text (newlines)

/-! ### Bodies

A body is read from a list of segments, of which the directives slice off their interiors when the
reader comes to them. `CanSlice` says that they can; it holds of all segments of a source that is
cut and of any part of them. -/

namespace Body

variable (src : String) (endLine : Nat)

/-- **The reader of bodies**, with its slices: what a segment announces, and what it reads from
that. -/
def run? (draft : Draft) (blocks : List OpenBlock) :
    List Segment → Option (Except Stuck (Node × List Segment))
  | [] => some (run src endLine draft blocks [])
  | segment :: rest =>
    let loc := Location.mk src segment.line
    segment.heading?.bind fun
      | .text content => run? (draft.add (.text loc (String.ofList content))) blocks rest
      | .interpolation expression =>
        (Expr.read? src expression segment.line).bind fun
          | .ok expr => run? (draft.add (.interpolation loc expr)) blocks rest
          | .error e => some (.error ⟨e, segment :: rest⟩)
      | .inclusion content =>
        (Expr.readInclusion? src content segment.line).bind fun
          | .ok (name, data) => run? (draft.add (.inclusion loc name data)) blocks rest
          | .error e => some (.error ⟨e, segment :: rest⟩)
      | .define _ => some (.error (stuckAt src segment rest .misplacedDefine))
      | .block kind content =>
        (Expr.read? src content segment.line).bind fun
          | .ok expr =>
            run? ⟨lineOf endLine rest, []⟩ (⟨segment.line, kind, expr, draft, none⟩ :: blocks) rest
          | .error e => some (.error ⟨e, segment :: rest⟩)
      | .orElse content =>
        match blocks with
        | [] => some (.ok (draft.close src, segment :: rest))
        | block :: outer =>
          if !Text.isBlank content then
            some (.error (stuckAt src segment rest
              (.contentAfterKeyword (String.ofList segment.text))))
          else if block.body?.isSome then
            some (.error (stuckAt src segment rest (.expectedEnd (String.ofList segment.text))))
          else
            let body := draft.close src
            run? ⟨lineOf endLine rest, []⟩ ({ block with body? := some body } :: outer) rest
      | .close content =>
        match blocks with
        | [] => some (.ok (draft.close src, segment :: rest))
        | block :: outer =>
          if !Text.isBlank content then
            some (.error (stuckAt src segment rest
              (.contentAfterKeyword (String.ofList segment.text))))
          else
            run? (block.close src (draft.close src)) outer rest

/-- **Reads the body** at the beginning of some segments, with all slices. -/
def read? (segments : List Segment) : Option (Except Stuck (Node × List Segment)) :=
  run? src endLine ⟨lineOf endLine segments, []⟩ [] segments

end Body

/-- **Segments that can be sliced**: what they announce is told from slices of them. The segments of
a source are, and so is whatever is left of them. -/
def CanSlice (segments : List Segment) : Prop :=
  ∀ segment ∈ segments, segment.heading? = some segment.heading

theorem CanSlice.mono {segments rest : List Segment} (h : CanSlice segments)
    (hsub : rest ⊆ segments) : CanSlice rest :=
  fun segment hmem => h segment (hsub hmem)

/-- Bodies are read with all slices. -/
theorem Body.run?_eq {src : String} {endLine : Nat} {segments : List Segment}
    (h : CanSlice segments) (draft : Draft) (blocks : List OpenBlock) :
    run? src endLine draft blocks segments = some (run src endLine draft blocks segments) := by
  induction segments generalizing draft blocks with
  | nil => rfl
  | cons segment rest ih =>
    have hrest := h.mono (List.subset_cons_self segment rest)
    rw [run?, h segment List.mem_cons_self, run]
    simp only [Option.bind_some, Expr.read?_eq, Expr.readInclusion?_eq]
    -- what the segment announces decides what is read of it, as in the reader itself
    cases segment.heading with
    | text content => exact ih hrest _ _
    | interpolation content =>
      dsimp only
      cases Expr.read src content segment.line with
      | error e => rfl
      | ok expr => exact ih hrest _ _
    | inclusion content =>
      dsimp only
      cases Expr.readInclusion src content segment.line with
      | error e => rfl
      | ok parts => exact ih hrest _ _
    | define content => rfl
    | block kind content =>
      dsimp only
      cases Expr.read src content segment.line with
      | error e => rfl
      | ok expr => exact ih hrest _ _
    | orElse content =>
      cases blocks with
      | nil => rfl
      | cons block outer =>
        dsimp only
        split
        · rfl
        split
        · rfl
        · exact ih hrest _ _
    | close content =>
      cases blocks with
      | nil => rfl
      | cons block outer =>
        dsimp only
        split
        · rfl
        · exact ih hrest _ _

/-- Reading a body never makes segments. -/
theorem Body.length_le_of_run? {src : String} {endLine : Nat} {draft : Draft}
    {blocks : List OpenBlock} {segments rest : List Segment} {body : Node}
    (h : run? src endLine draft blocks segments = some (.ok (body, rest))) :
    rest.length ≤ segments.length := by
  induction segments generalizing draft blocks with
  | nil => exact length_le_of_run _ _ (Option.some.inj h)
  | cons segment more ih =>
    -- the reader that goes on leaves no more than the rest
    have hmore {draft : Draft} {blocks : List OpenBlock}
        (h : run? src endLine draft blocks more = some (.ok (body, rest))) :
        rest.length ≤ (segment :: more).length := Nat.le_succ_of_le (ih h)
    rw [run?] at h
    simp only [Expr.read?_eq, Expr.readInclusion?_eq, Option.bind_some] at h
    obtain ⟨heading, -, h⟩ := Option.bind_eq_some_iff.1 h
    repeat' split at h
    -- the reader goes on, or stops at the segment, or fails
    all_goals first
      | exact hmore h
      | cases h; exact Nat.le_refl _
      | cases h

/-! ### Documents

The reader of documents takes segments off the front, and it comes to an end because it never puts
any back. Here this is shown for the reader with slices itself, as its definition depends on it. -/

namespace DocumentReader

/-- **Reads a body under a name**, with all slices. -/
def readBody? (reader : DocumentReader) (name : String) (line : Nat) :
    Option (Except SourceError Unit × DocumentReader) :=
  (Body.read? reader.src reader.endLine reader.rest).map fun
    | .error stuck => (.error stuck.error, reader.withRest stuck.rest)
    | .ok (body, rest) =>
      if reader.templates.contains name then
        (.error (reader.errorAt line (.redefinition name)), reader.withRest rest)
      else
        (.ok (), { reader with rest, templates := reader.templates.insert name body })

/-- **Takes the directive that ends a definition**, with its slice. -/
def takeEnd? (reader : DocumentReader) : Option (Except SourceError Unit × DocumentReader) :=
  match reader.rest with
  | [] => some (.error (reader.errorAt reader.endLine .missingEnd), reader)
  | segment :: rest =>
    segment.heading?.map fun
      | .close content =>
        if Text.isBlank content then (.ok (), reader.withRest rest)
        else
          (.error (reader.errorAt segment.line
            (.contentAfterKeyword (String.ofList segment.text))), reader)
      | .orElse content =>
        if Text.isBlank content then
          (.error (reader.errorAt segment.line (.expectedEnd (String.ofList segment.text))), reader)
        else
          (.error (reader.errorAt segment.line
            (.contentAfterKeyword (String.ofList segment.text))), reader)
      | _ =>
        (.error (reader.errorAt segment.line (.expectedEnd (String.ofList segment.text))), reader)

/-- **Reads a definition** whose directive is the next segment, with all slices. -/
def readDefinition? (reader : DocumentReader) (line : Nat) (content : List Char)
    (rest : List Segment) : Option (Except SourceError Unit × DocumentReader) :=
  (Expr.read? reader.src content line).bind fun
    | .error e => some (.error e, reader)
    | .ok (.literal _ name) =>
      ((reader.withRest rest).readBody? name line).bind fun
        | (.error e, reader) => some (.error e, reader)
        | (.ok (), reader) => reader.takeEnd?
    | .ok expr => some (.error (reader.errorAt line (.nameNotLiteral expr.sourceText)), reader)

/-- Reading a body under a name takes nothing back. -/
theorem length_readBody?_le {reader after : DocumentReader} {name : String} {line : Nat}
    (h : reader.readBody? name line = some (.ok (), after)) :
    after.rest.length ≤ reader.rest.length := by
  obtain ⟨result, hread, h⟩ := Option.map_eq_some_iff.1 h
  split at h
  · cases h
  · split at h
    · cases h
    · cases h
      exact Body.length_le_of_run? hread

/-- Taking the end of a definition takes one segment. -/
theorem length_takeEnd?_lt {reader after : DocumentReader}
    (h : reader.takeEnd? = some (.ok (), after)) : after.rest.length < reader.rest.length := by
  unfold takeEnd? at h
  split at h
  · cases h
  · next hrest =>
    obtain ⟨heading, -, h⟩ := Option.map_eq_some_iff.1 h
    repeat' split at h
    all_goals cases h
    simp [withRest, hrest]

/-- Reading a definition takes more than its directive. -/
theorem length_readDefinition?_lt {reader after : DocumentReader} {line : Nat} {content : List Char}
    {rest : List Segment}
    (h : reader.readDefinition? line content rest = some (.ok (), after)) :
    after.rest.length < rest.length := by
  obtain ⟨result, -, h⟩ := Option.bind_eq_some_iff.1 h
  split at h
  · cases h
  · obtain ⟨body, hbody, h⟩ := Option.bind_eq_some_iff.1 h
    split at h
    · cases h
    · exact Nat.lt_of_lt_of_le (length_takeEnd?_lt h) (length_readBody?_le hbody)
  · cases h

/-- **Reads all definitions** at the beginning of a document, with all slices. The recursion is that
of the reader without them, and ends for the same reason. -/
def readDefinitions? (reader : DocumentReader) :
    Option (Except SourceError Unit × DocumentReader) :=
  match hrest : reader.rest with
  | [] => some (.ok (), reader)
  | segment :: rest =>
    have hlt : rest.length < reader.rest.length := by simp [hrest]
    if segment.isBlank then (reader.withRest rest).readDefinitions?
    else
      match segment.heading? with
      | none => none
      | some (.define content) =>
        match hdef : reader.readDefinition? segment.line content rest with
        | none => none
        | some (.error e, after) => some (.error e, after)
        | some (.ok (), after) =>
          have := Nat.lt_trans (length_readDefinition?_lt hdef) hlt
          after.readDefinitions?
      | some _ => some (.ok (), reader)
termination_by reader.rest.length

/-- **Reads what follows the definitions**, with all slices. -/
def readNamed? (reader : DocumentReader) (name? : Option String) :
    Option (Except SourceError Unit × DocumentReader) :=
  match reader.rest, name? with
  | segment :: _, some name => reader.readBody? name segment.line
  | _, _ => some (.ok (), reader)

/-- **Reads a document**, with all slices. -/
def read? (reader : DocumentReader) (name? : Option String) :
    Option (Except SourceError (NameMap Node) × DocumentReader) :=
  reader.readDefinitions?.bind fun
    | (.error e, reader) => some (.error e, reader)
    | (.ok (), reader) =>
      (reader.readNamed? name?).map fun
        | (.error e, reader) => (.error e, reader)
        | (.ok (), reader) => reader.handOut

end DocumentReader

/-- **Reads the templates of a source, with every slice that is taken on the way.** Where a slice is
amiss there is no result. -/
def TemplateSet.ofSource? (src code : String) (name? : Option String) :
    Option (Except SourceError TemplateSet) :=
  (Segmentation.ofSource? src (Text.normalize code.toList)).bind fun
    | .error e => some (.error e)
    | .ok cut =>
      ((DocumentReader.ofSegments src cut.segments cut.endLine).read? name?).map fun
        | (.error e, _) => .error e
        | (.ok templates, _) => .ok ⟨.empty, templates⟩

/-! ### No slice is amiss

`CanSlice` of what is left is kept by every step of the reader of documents, since each step leaves
some of the segments that were there. So each step with slices equals the one without, and so does
the whole. -/

namespace DocumentReader

variable {reader : DocumentReader}

/-- Bodies under names are read with all slices. -/
theorem readBody?_eq (h : CanSlice reader.rest) (name : String) (line : Nat) :
    reader.readBody? name line = some (reader.readBody name line) := by
  have hbody : Body.read? reader.src reader.endLine reader.rest
      = some (Body.read reader.src reader.endLine reader.rest) := Body.run?_eq h _ []
  cases hread : Body.read reader.src reader.endLine reader.rest <;>
    simp only [readBody?, readBody, hbody, hread, Option.map_some]

/-- What is not taken of a body can be sliced. -/
theorem canSlice_of_readBody {after : DocumentReader} {name : String} {line : Nat}
    (h : CanSlice reader.rest) (hread : reader.readBody name line = (.ok (), after)) :
    CanSlice after.rest := by
  obtain ⟨tree, rest, hbody, -, rfl⟩ := readBody_eq_ok_iff.1 hread
  obtain ⟨inside, nodes, hsplit, -⟩ := Body.read_eq_ok_iff.1 hbody
  rw [hsplit] at h
  exact h.mono (List.subset_append_right inside rest)

/-- The end of a definition is taken with its slice. -/
theorem takeEnd?_eq (h : CanSlice reader.rest) : reader.takeEnd? = some reader.takeEnd := by
  rw [takeEnd?, takeEnd]
  cases hrest : reader.rest with
  | nil => rfl
  | cons segment rest =>
    rw [hrest] at h
    cases hheading : segment.heading <;>
      simp only [h segment List.mem_cons_self, hheading, Option.map_some]

/-- Definitions are read with all slices. -/
theorem readDefinition?_eq {rest : List Segment} (h : CanSlice rest) (line : Nat)
    (content : List Char) :
    reader.readDefinition? line content rest
      = some (reader.readDefinition line content rest) := by
  rw [readDefinition?, readDefinition, Expr.read?_eq, Option.bind_some]
  cases Expr.read reader.src content line with
  | error e => rfl
  | ok expr =>
    cases expr with
    -- only a literal is a name; after its body the end is taken from what is left
    | literal loc name =>
      have hbody : CanSlice (reader.withRest rest).rest := h
      dsimp only
      rw [readBody?_eq hbody, Option.bind_some]
      cases hread : (reader.withRest rest).readBody name line with
      | mk result after =>
        cases result with
        | error e => rfl
        | ok _ => exact takeEnd?_eq (canSlice_of_readBody hbody hread)
    | _ => rfl

/-- What is not taken of a definition can be sliced. -/
theorem canSlice_of_readDefinition {after : DocumentReader} {rest : List Segment} {line : Nat}
    {content : List Char} (h : CanSlice rest)
    (hread : reader.readDefinition line content rest = (.ok (), after)) : CanSlice after.rest := by
  obtain ⟨loc, name, inside, closing, others, body, -, rfl, -, -, -, rfl⟩ :=
    readDefinition_eq_ok_iff.1 hread
  exact h.mono (by simp)

/-- What is done with the segment that comes next. -/
theorem readDefinitions?_cons {segment : Segment} {rest : List Segment}
    (hrest : reader.rest = segment :: rest) :
    reader.readDefinitions?
      = if segment.isBlank then (reader.withRest rest).readDefinitions?
        else segment.heading?.bind fun
          | .define content =>
            (reader.readDefinition? segment.line content rest).bind fun
              | (.error e, after) => some (.error e, after)
              | (.ok (), after) => after.readDefinitions?
          | _ => some (.ok (), reader) := by
  rw [readDefinitions?]
  split
  · next hnil =>
    rw [hrest] at hnil
    cases hnil
  · next other more hcons =>
    rw [hrest] at hcons
    cases hcons
    split
    · rfl
    · split
      · next hnone => rw [hnone, Option.bind_none]
      · next content hheading =>
        rw [hheading, Option.bind_some]
        dsimp only
        split
        · next hnone => rw [hnone, Option.bind_none]
        · next herror => rw [herror, Option.bind_some]
        · next hok => simp only [hok, Option.bind_some]
      · next heading hdefine hheading =>
        rw [hheading, Option.bind_some]
        split
        · next content => exact absurd rfl (hdefine content)
        · rfl

/-- All definitions are read with all slices. -/
theorem readDefinitions?_eq (h : CanSlice reader.rest) :
    reader.readDefinitions? = some reader.readDefinitions := by
  -- along the reader without slices, with the rest of the segments still to be sliced
  fun_induction readDefinitions reader with
  | case1 reader hrest =>
    rw [readDefinitions?]
    split
    · rfl
    · next hcons =>
      rw [hrest] at hcons
      cases hcons
  | case2 reader segment rest hrest _ hblank ih =>
    rw [hrest] at h
    rw [readDefinitions?_cons hrest, if_pos hblank]
    exact ih (h.mono (List.subset_cons_self segment rest))
  | case3 reader segment rest hrest _ hblank content hheading e after hread =>
    rw [hrest] at h
    rw [readDefinitions?_cons hrest, if_neg hblank, h segment List.mem_cons_self, hheading,
      Option.bind_some]
    dsimp only
    rw [readDefinition?_eq (h.mono (List.subset_cons_self segment rest)), hread]
    rfl
  -- a definition was read, and what it left can be sliced
  | case4 reader segment rest hrest _ hblank content hheading after hread _ ih =>
    rw [hrest] at h
    have hmore := h.mono (List.subset_cons_self segment rest)
    rw [readDefinitions?_cons hrest, if_neg hblank, h segment List.mem_cons_self, hheading,
      Option.bind_some]
    dsimp only
    rw [readDefinition?_eq hmore, hread]
    exact ih (canSlice_of_readDefinition hmore hread)
  | case5 reader segment rest hrest _ hblank hdefine =>
    rw [hrest] at h
    rw [readDefinitions?_cons hrest, if_neg hblank, h segment List.mem_cons_self, Option.bind_some]
    split
    · next content hheading => exact absurd hheading (hdefine content)
    · rfl

/-- A body behind the definitions is read with all slices. -/
theorem readNamed?_eq (h : CanSlice reader.rest) (name? : Option String) :
    reader.readNamed? name? = some (reader.readNamed name?) := by
  unfold readNamed? readNamed
  cases hrest : reader.rest with
  | nil => rfl
  | cons segment rest =>
    cases name? with
    | none => rfl
    | some name => exact readBody?_eq h name segment.line

/-- **Documents are read with all slices**, to the answer and the state that the reader comes to
without them. -/
theorem read?_eq {src : String} {segments : List Segment} {endLine : Nat} (h : CanSlice segments)
    (name? : Option String) :
    (ofSegments src segments endLine).read? name?
      = some ((ofSegments src segments endLine).read name?) := by
  have hsegments : CanSlice (ofSegments src segments endLine).rest := h
  rw [read?, read, readDefinitions?_eq hsegments, Option.bind_some]
  cases hread : (ofSegments src segments endLine).readDefinitions with
  | mk result after =>
    cases result with
    | error e => rfl
    -- the definitions took some segments from the front, so what is left can be sliced
    | ok _ =>
      obtain ⟨taken, items, rest, n, rfl, -, -, -, rfl⟩ :=
        exists_definitions_of_readDefinitions NameMap.holds_empty hread
      have hrest : CanSlice (DocumentReader.mk src endLine rest n).rest :=
        h.mono (List.subset_append_right taken rest)
      cases hnamed : (DocumentReader.mk src endLine rest n).readNamed name? with
      | mk result last =>
        cases result <;> simp only [readNamed?_eq hrest, hnamed, Option.map_some]

end DocumentReader

/-- The segments of a source that is cut can be sliced. -/
theorem canSlice_of_segmentation {src : String} {code : List Char} {cut : Segmentation}
    (h : Segmentation.ofSource src code = .ok cut) : CanSlice cut.segments :=
  fun _ hmem => Segment.heading?_eq (isDirective_of_segmentation h hmem)

/-- **Sources are read with all slices**, to the same result. Whatever is proved of reading by
characters is so proved of reading by bytes. -/
theorem TemplateSet.ofSource?_eq (src code : String) (name? : Option String) :
    ofSource? src code name? = some (ofSource src code name?) := by
  rw [ofSource?, ofSource, Segmentation.ofSource?_eq, Option.bind_some]
  cases hcut : Segmentation.ofSource src (Text.normalize code.toList) with
  | error e => rfl
  | ok cut =>
    cases hread : (DocumentReader.ofSegments src cut.segments cut.endLine).read name? with
    | mk result reader =>
      cases result <;>
        simp only [DocumentReader.read?_eq (canSlice_of_segmentation hcut), hread, Option.map_some]

/-! ### The scanners and the reader

What is known of the slices, the scanners and the reader, in one place. -/

/-- **Whatever is read by bytes is read by characters.** There is a slice of a text exactly between
places that are in order and in bounds and stand between characters. Reading a source takes slices
of it: the rest of it and the texts of its segments, the interiors of its directives, the rests
and lexemes of their expressions with what an expression has taken and leaves over, the bodies of
literals and the paths of references. There is every one of them, for otherwise there would be no
result; and there is always one, the templates or an error, the same as without slices. In
particular the ends of literals and of directives, which are found byte by byte and with two bytes
for a backslash and what it takes along, are on every text and from every place on those that
are found character by character, with one whole character for it. -/
theorem reading_slices_between_characters :
    (∀ (cs : List Char) (start stop : Nat),
      (slice? cs start stop).isSome = true ↔
        start ≤ stop ∧ stop ≤ byteLength cs ∧
          isByteBoundary cs start = true ∧ isByteBoundary cs stop = true) ∧
    (∀ (src code : String) (name? : Option String),
      TemplateSet.ofSource? src code name? = some (TemplateSet.ofSource src code name?)) ∧
    (∀ (cs : List Char) (i : Nat) (q : Char), Text.Literal.isQuote q = true →
      quotedEnd (utf8 cs) q.toUInt8 i
        = (Text.Literal.span q (dropBytes i cs)).map fun found =>
            byteLength cs - byteLength found.2) ∧
    (∀ (cs : List Char) (i : Nat),
      directiveEnd (utf8 cs) i
        = (spanDirective none (dropBytes i cs)).map fun found =>
            byteLength cs - byteLength found.2) :=
  ⟨isSome_slice?_iff, TemplateSet.ofSource?_eq,
    fun cs i _ hq => quotedEnd_eq hq cs i, directiveEnd_eq⟩

/-- A backslash in front of a character of three bytes: the two bytes that are passed end inside of
it, and the literal and the directive end where they should. -/
theorem escaped_euro_ends :
    (∃ result, TemplateSet.ofSource? "t" "\x7b\x7b'\\€'\x7d\x7d" (some "t") = some result) ∧
    quotedEnd (utf8 ['\'', '\\', '€', '\'', ' ']) '\''.toUInt8 1 = some 6 ∧
    directiveEnd (utf8 ['{', '{', '\'', '\\', '€', '\'', '}', '}']) 2 = some 10 := by
  obtain ⟨-, hread, hliteral, hdirective⟩ := reading_slices_between_characters
  refine ⟨⟨_, hread _ _ _⟩, ?_, ?_⟩
  · rw [hliteral _ 1 '\'' (by decide)]
    rfl
  · rw [hdirective]
    rfl

end Stencil
