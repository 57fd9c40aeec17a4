import Stencil.Proofs.Document.Stops
import Stencil.Proofs.Expr.Literals
import Stencil.Proofs.Segment.Exactness
import Stencil.Render

/-!
# What an error is blamed on

A source that cannot be read has a directive that is never complete; or one of its directives cannot
be read as what it announces; or the directives do not fit together, which is found at one of them
or at the end of the source (`Blamed`). Which of these it is decides which faults are possible. In a
complete directive all literals end, so no source has the fault of a literal that does not
(`no_literal_is_left_open`).
-/

namespace Stencil

/-! ### Kinds of error

An error is about one directive, which is not what it announces, or about how directives fit
together. The two are told apart by the fault, and `Blamed` says for each of them which segment has
it. -/

/-- **How directives fail to fit together.** Each directive can be read by itself then, and it is
their order or their names that is wrong. -/
inductive Fault.IsStructural : Fault → Prop
  /-- a definition whose name is not a literal -/
  | nameNotLiteral (expression : String) : IsStructural (.nameNotLiteral expression)
  /-- a name that is defined already -/
  | redefinition (name : String) : IsStructural (.redefinition name)
  /-- a definition after other content or inside it -/
  | misplacedDefine : IsStructural .misplacedDefine
  /-- more than the bare keyword -/
  | contentAfterKeyword (directive : String) : IsStructural (.contentAfterKeyword directive)
  /-- the end of the source inside a block or definition -/
  | missingEnd : IsStructural .missingEnd
  /-- another directive where a block or definition has to end -/
  | expectedEnd (found : String) : IsStructural (.expectedEnd found)
  /-- content that belongs to no template -/
  | unparsedContent (rest : String) : IsStructural (.unparsedContent rest)

/-- The part of a directive that should be an expression, unless it includes a template. -/
def Heading.expression? : Heading → Option (List Char)
  | .interpolation content | .block _ content | .define content => some content
  | .text _ | .inclusion _ | .orElse _ | .close _ => none

/-- **A directive is misread**: what it announces should be an expression, or an inclusion, and
cannot be read as one. -/
inductive Segment.Misread (src : String) (segment : Segment) : SourceError → Prop
  /-- it is not the expression it should be -/
  | expression {content : List Char} {e : SourceError} :
    segment.heading.expression? = some content →
    Expr.read src content segment.line = .error e → Misread src segment e
  /-- it is not the inclusion it should be -/
  | inclusion {content : List Char} {e : SourceError} :
    segment.heading = .inclusion content →
    Expr.readInclusion src content segment.line = .error e → Misread src segment e

/-- **What an error of a document is blamed on**, that has some segments and ends on a line: one of
the segments, or the end. -/
inductive Blamed (src : String) (endLine : Nat) (segments : List Segment) : SourceError → Prop
  /-- a directive that is misread -/
  | directive {segment : Segment} {e : SourceError} :
    segment ∈ segments → segment.Misread src e → Blamed src endLine segments e
  /-- a segment that does not fit -/
  | segment {segment : Segment} {fault : Fault} :
    segment ∈ segments → fault.IsStructural →
    Blamed src endLine segments (.malformed ⟨src, segment.line⟩ fault)
  /-- the end of the source, where a block or definition should end -/
  | atEnd : Blamed src endLine segments (.malformed ⟨src, endLine⟩ .missingEnd)

section Reader

variable {src : String} {endLine : Nat} {m : NameMap Node} {segments rest : List Segment}
  {e : SourceError}

/-- **What is misread is a directive**, and what it says is no expression, or no inclusion. -/
theorem Segment.Misread.exists_content {segment : Segment} (h : segment.Misread src e) :
    segment.kind = .directive ∧
      (Expr.read src segment.heading.content segment.line = .error e ∨
        Expr.readInclusion src segment.heading.content segment.line = .error e) := by
  cases h with
  | @expression content _ hexpression hread =>
    cases hheading : segment.heading with
    | interpolation | block | define =>
      rw [hheading] at hexpression
      cases hexpression
      exact ⟨kind_eq_directive hheading (by simp), .inl hread⟩
    | text | inclusion | orElse | close =>
      rw [hheading] at hexpression
      cases hexpression
  | inclusion hheading hread =>
    rw [hheading]
    exact ⟨kind_eq_directive hheading (by simp), .inr hread⟩

/-- What is blamed on some of the segments is blamed on them all. -/
theorem Blamed.mono (h : Blamed src endLine rest e) (hsub : rest ⊆ segments) :
    Blamed src endLine segments e := by
  cases h with
  | directive hmem hmisread => exact .directive (hsub hmem) hmisread
  | segment hmem hfault => exact .segment (hsub hmem) hfault
  | atEnd => exact .atEnd

/-- What a body refuses is to blame. -/
theorem Body.Refuses.blamed {stuck : Stuck} (h : Refuses src endLine stuck) :
    Blamed src endLine stuck.rest stuck.error := by
  cases h with
  | interpolation hheading hread | block hheading hread =>
    exact .directive List.mem_cons_self (.expression (by rw [hheading]; rfl) hread)
  | inclusion hheading hread => exact .directive List.mem_cons_self (.inclusion hheading hread)
  | define => exact .segment List.mem_cons_self .misplacedDefine
  | longElse | longEnd => exact .segment List.mem_cons_self (.contentAfterKeyword _)
  | secondElse => exact .segment List.mem_cons_self (.expectedEnd _)
  | atEnd => exact .atEnd

/-- **What an error of the body reader is blamed on**, from any state it is in. -/
theorem Body.blamed_of_run {draft : Draft} {blocks : List OpenBlock} {stuck : Stuck}
    (h : run src endLine draft blocks segments = .error stuck) :
    Blamed src endLine segments stuck.error := by
  obtain ⟨hrefuses, hrest⟩ := refuses_of_run h
  exact hrefuses.blamed.mono hrest.subset

namespace DocumentReader

/-- A body under a name fails as a body, or its name is taken. -/
theorem blamed_of_readBody {name : String} {line : Nat}
    (h : ((⟨src, endLine, segments, m⟩ : DocumentReader).readBody name line).1 = .error e) :
    Blamed src endLine segments e ∨ e = .malformed ⟨src, line⟩ (.redefinition name) := by
  obtain ⟨stuck, hread, hfails⟩ | ⟨_, _, -, ⟨-, hfails⟩ | ⟨-, hadds⟩⟩ :=
    readBody_cases (⟨src, endLine, segments, m⟩ : DocumentReader) name line
  · rw [hfails] at h
    cases h
    exact .inl (Body.blamed_of_run hread)
  · rw [hfails] at h
    cases h
    exact .inr rfl
  · rw [hadds] at h
    cases h

/-- Where a definition should end, another directive is to blame, or the end of the source. -/
theorem blamed_of_takeEnd
    (h : (⟨src, endLine, segments, m⟩ : DocumentReader).takeEnd.1 = .error e) :
    Blamed src endLine segments e := by
  obtain ⟨_, _, -, -, htakes⟩ | ⟨-, hfails⟩ | ⟨segment, rest, fault, hrest, hfault, hfails⟩ :=
    takeEnd_cases (⟨src, endLine, segments, m⟩ : DocumentReader)
  · rw [htakes] at h
    cases h
  · rw [hfails] at h
    cases h
    exact .atEnd
  · rw [hfails] at h
    cases h
    obtain rfl : segments = segment :: rest := hrest
    obtain rfl | rfl := hfault
    · exact .segment List.mem_cons_self (.contentAfterKeyword _)
    · exact .segment List.mem_cons_self (.expectedEnd _)

/-- **What an error of a definition is blamed on.** -/
theorem blamed_of_readDefinition {opening : Segment} {content : List Char}
    (hheading : opening.heading = .define content)
    (h : ((⟨src, endLine, opening :: rest, m⟩ : DocumentReader).readDefinition opening.line content
      rest).1 = .error e) : Blamed src endLine (opening :: rest) e := by
  have htail : rest ⊆ opening :: rest := List.subset_cons_self opening rest
  obtain ⟨_, hread, hfails⟩ | ⟨_, -, -, hfails⟩ | ⟨_, name, -, hbody⟩ :=
    readDefinition_cases (⟨src, endLine, opening :: rest, m⟩ : DocumentReader) opening.line content
      rest
  · rw [hfails] at h
    cases h
    exact .directive List.mem_cons_self (.expression (by rw [hheading]; rfl) hread)
  · rw [hfails] at h
    cases h
    exact .segment List.mem_cons_self (.nameNotLiteral _)
  obtain ⟨_, _, hbody, hfails⟩ | ⟨next, hbody, htakes⟩ := hbody
  · rw [hfails] at h
    cases h
    rcases blamed_of_readBody (congrArg Prod.fst hbody) with hblamed | rfl
    · exact hblamed.mono htail
    · exact .segment List.mem_cons_self (.redefinition name)
  · rw [htakes] at h
    -- the end is looked for behind the body, among the segments that the body has left
    obtain ⟨tree, stops, hstops, -, rfl⟩ := readBody_eq_ok_iff.1 hbody
    obtain ⟨inside, nodes, rfl, -⟩ := Body.read_eq_ok_iff.1 hstops
    exact ((blamed_of_takeEnd h).mono (List.subset_append_right inside stops)).mono htail

/-- Where a definition fails, the definitions do. -/
theorem readDefinitions_define_error {opening : Segment} {content : List Char}
    {after : DocumentReader} (hheading : opening.heading = .define content)
    (hread : (⟨src, endLine, opening :: rest, m⟩ : DocumentReader).readDefinition opening.line
      content rest = (.error e, after)) :
    (⟨src, endLine, opening :: rest, m⟩ : DocumentReader).readDefinitions = (.error e, after) := by
  rw [readDefinitions]
  simp only [Segment.isBlank_eq_false_of_define hheading, Bool.false_eq_true, if_false]
  split
  · next content' hheading' =>
    obtain rfl : content = content' := Heading.define.inj (hheading.symm.trans hheading')
    split
    · next hread' =>
      rw [hread] at hread'
      cases hread'
      rfl
    · next hread' =>
      rw [hread] at hread'
      cases hread'
  · next hne => exact absurd hheading (hne content)

/-- **What an error among the definitions is blamed on.** -/
theorem blamed_of_readDefinitions
    (h : (⟨src, endLine, segments, m⟩ : DocumentReader).readDefinitions.1 = .error e) :
    Blamed src endLine segments e := by
  -- on the number of segments, as the definitions are read
  induction hlength : segments.length using Nat.strongRecOn generalizing segments m with
  | ind n ih =>
    subst hlength
    cases segments with
    | nil =>
      rw [readDefinitions_after afterDefinitions_nil] at h
      cases h
    | cons segment rest =>
      by_cases hblank : segment.isBlank = true
      · rw [readDefinitions_blank hblank] at h
        exact (ih rest.length (Nat.lt_succ_self _) h rfl).mono (List.subset_cons_self segment rest)
      by_cases hdefine : ∃ content, segment.heading = .define content
      · obtain ⟨content, hheading⟩ := hdefine
        cases hread : (⟨src, endLine, segment :: rest, m⟩ : DocumentReader).readDefinition
            segment.line content rest with
        | mk result after =>
          cases result with
          | error e' =>
            rw [readDefinitions_define_error hheading hread] at h
            cases h
            exact blamed_of_readDefinition hheading (congrArg Prod.fst hread)
          | ok _ =>
            rw [readDefinitions_define hheading hread] at h
            -- a definition was read, so what is blamed is behind it
            obtain ⟨loc, name, inside, closing, others, body, -, rfl, -, -, -, rfl⟩ :=
              readDefinition_eq_ok_iff.1 hread
            refine (ih others.length (by grind) h rfl).mono fun other hmem => ?_
            simp [hmem]
      · have hrest : AfterDefinitions (segment :: rest) := by
          rintro other ⟨⟩
          refine ⟨Bool.eq_false_iff.2 hblank, ?_⟩
          intro content hheading
          exact hdefine ⟨content, hheading⟩
        rw [readDefinitions_after hrest] at h
        cases h

/-- **What an error of a document is blamed on.** -/
theorem blamed_of_read {name? : Option String}
    (h : ((ofSegments src segments endLine).read name?).1 = .error e) :
    Blamed src endLine segments e := by
  obtain ⟨_, _, hdefinitions, hfails⟩ | ⟨after, hdefinitions, hcall⟩ :=
    read_cases (ofSegments src segments endLine) name?
  · rw [hfails] at h
    cases h
    exact blamed_of_readDefinitions (congrArg Prod.fst hdefinitions)
  obtain ⟨taken, items, rest, n, rfl, -, -, -, rfl⟩ :=
    exists_definitions_of_readDefinitions NameMap.holds_empty hdefinitions
  have hsub : rest ⊆ taken ++ rest := List.subset_append_right taken rest
  obtain ⟨_, _, hnamed, hfails⟩ | ⟨last, hnamed, hread⟩ := hcall
  · rw [hfails] at h
    cases h
    obtain ⟨hsame, -⟩ | ⟨first, others, name, hfirst, -, hbody⟩ :=
      readNamed_cases (⟨src, endLine, rest, n⟩ : DocumentReader) name?
    · cases hsame.symm.trans hnamed
    obtain rfl : rest = first :: others := hfirst
    rcases blamed_of_readBody (congrArg Prod.fst (hbody.symm.trans hnamed)) with hblamed | rfl
    · exact hblamed.mono hsub
    · exact .segment (hsub List.mem_cons_self) (.redefinition name)
  rw [hread] at h
  obtain ⟨-, hout⟩ | ⟨segment, left, _, hleft, hout⟩ := handOut_cases last
  · rw [hout] at h
    cases h
  rw [hout] at h
  cases h
  -- content is left over, behind the definitions or behind a body
  obtain ⟨hsame, -⟩ | ⟨first, others, name, hfirst, -, hbody⟩ :=
    readNamed_cases (⟨src, endLine, rest, n⟩ : DocumentReader) name?
  · cases hsame.symm.trans hnamed
    obtain rfl : rest = segment :: left := hleft
    exact .segment (hsub List.mem_cons_self) (.unparsedContent _)
  · obtain ⟨tree, stops, hstops, -, rfl⟩ := readBody_eq_ok_iff.1 (hbody.symm.trans hnamed)
    obtain rfl : stops = segment :: left := hleft
    obtain ⟨inside, nodes, hinside, -⟩ := Body.read_eq_ok_iff.1 hstops
    have hmem : segment ∈ rest := by simp [hinside]
    exact .segment (hsub hmem) (.unparsedContent _)

end DocumentReader

end Reader

/-! ### Whole sources -/

/-- The directives of a source that is cut are complete. -/
theorem isDirective_of_segmentation {src : String} {code : List Char} {cut : Segmentation}
    {segment : Segment} (h : Segmentation.ofSource src code = .ok cut)
    (hmem : segment ∈ cut.segments) (hkind : segment.kind = .directive) :
    IsDirective segment.text := by
  obtain ⟨segments, hdissects, rfl⟩ := exists_dissects_of_segmentation h
  have hsegment : segment ∈ segments := (dropTrailingBlank_isPrefix segments).subset hmem
  exact (hdissects.isFirst segment hsegment hkind).complete

/-- What a heading gives is a part of the directive. -/
theorem isPart_content {segment : Segment} (hkind : segment.kind = .directive) :
    IsPart segment.interior segment.heading.content := by
  rcases Segment.content_cases hkind with hwhole | ⟨entry, hentry, hafter⟩
  · rw [hwhole]
    exact .whole
  · exact .afterWord hentry hafter

/-- **What an error of a source is blamed on**: it cannot be cut, or its segments are to blame.
Every error of a source is one of these. -/
theorem TemplateSet.blamed_of_ofSource {src code : String} {name? : Option String}
    {e : SourceError} (h : TemplateSet.ofSource src code name? = .error e) :
    Segmentation.ofSource src (Text.normalize code.toList) = .error e ∨
      ∃ cut, Segmentation.ofSource src (Text.normalize code.toList) = .ok cut ∧
        Blamed src cut.endLine cut.segments e := by
  simp only [ofSource] at h
  split at h
  · next hcut =>
    cases h
    exact .inl hcut
  · next cut hcut =>
    split at h <;> cases h
    next hread =>
      exact .inr ⟨cut, hcut, DocumentReader.blamed_of_read (congrArg Prod.fst hread)⟩

/-- A structural fault is not about a literal. -/
theorem Fault.IsStructural.isOpenLiteral_eq_false {fault : Fault} (h : fault.IsStructural) :
    fault.isOpenLiteral = false := by
  cases h <;> rfl

/-! ### Messages

That a fault is not raised does not yet say that no message looks like its own, since messages quote
the source. So each message is compared with the words of those two at its beginning, which is fixed
text for every fault. -/

/-- **Neither of two texts begins with the other**, so that they stay different whatever is put
behind them. -/
def Clashes (words text : String) : Prop :=
  ¬ words.toList <+: text.toList ∧ ¬ text.toList <+: words.toList

instance (words text : String) : Decidable (Clashes words text) :=
  inferInstanceAs (Decidable (_ ∧ _))

/-- What clashes does so whatever follows. -/
theorem Clashes.append {words text : String} (h : Clashes words text) (rest : String) :
    Clashes words (text ++ rest) := by
  have hbegins : text.toList <+: (text ++ rest).toList := by
    rw [String.toList_append]
    exact List.prefix_append _ _
  refine ⟨fun hwords => ?_, fun htext => h.2 (hbegins.trans htext)⟩
  rcases List.prefix_or_prefix_of_prefix hwords hbegins with hprefix | hprefix
  · exact h.1 hprefix
  · exact h.2 hprefix

/-- **The words of the faults of open literals**, with which their messages begin and no others
do. -/
def openLiteralWords : List String :=
  ["unterminated string literal ", "invalid string literal "]

/-- Only their messages begin with these words. -/
theorem Fault.clashes_message {fault : Fault} (h : fault.isOpenLiteral = false) {words : String}
    (hwords : words ∈ openLiteralWords) : Clashes words fault.message := by
  -- it is enough to look at the words that a message begins with
  have lead {text : String} (hclash : ∀ words ∈ openLiteralWords, Clashes words text) :
      Clashes words text := hclash words hwords
  cases fault with
  | unterminatedLiteral => cases h
  | danglingBackslash => cases h
  | misplacedDefine => exact lead (by decide +kernel)
  | missingEnd => exact lead (by decide +kernel)
  | missingOperand | missingName | expectedName | malformedReference | nameNotLiteral |
    redefinition | contentAfterKeyword | expectedEnd | unparsedContent =>
    exact (lead (by decide +kernel)).append _
  | expectedParen paren found =>
    cases found with
    | none => exact ((lead (by decide +kernel)).append _).append _
    | some found => exact (((lead (by decide +kernel)).append _).append _).append _
  | unexpectedLexeme | unknownEscape | trailingContent =>
    exact (((lead (by decide +kernel)).append _).append _).append _

/-! ### No open literals

A directive of a source that is cut is complete, so all literals in it end; and so they do in each
part of it that is cut into lexemes, however it is cut off. -/

/-- **No error that is blamed on the segments of a source that is cut leaves a literal open**: a
directive is cut only where its literals have ended. -/
theorem Blamed.closesLiterals {src : String} {code : List Char} {cut : Segmentation}
    {e : SourceError} (hcut : Segmentation.ofSource src code = .ok cut)
    (h : Blamed src cut.endLine cut.segments e) : Expr.ClosesLiterals e := by
  have outside {segment : Segment} (hmem : segment ∈ cut.segments)
      (hkind : segment.kind = .directive) : Outside segment.heading.content :=
    (isPart_content hkind).outside
      ((isDirective_of_segmentation hcut hmem hkind).outside_interior hkind)
  cases h with
  | directive hmem hmisread =>
    obtain ⟨hkind, hread | hread⟩ := hmisread.exists_content
    · exact Expr.closesLiterals_of_read (outside hmem hkind) hread
    · exact Expr.closesLiterals_of_readInclusion (outside hmem hkind) hread
  | segment _ hfault => exact ⟨_, _, rfl, hfault.isOpenLiteral_eq_false⟩
  | atEnd => exact ⟨_, _, rfl, rfl⟩

/-- **No source leaves a literal open.** Of whatever source is cut into segments, all the texts that
are cut into lexemes have lexemes: the interior of every directive, what a word of the table leaves
of it, and what an expression that is read leaves of either. No literal among those lexemes ends
with a backslash that takes nothing along. So no source that cannot be read fails for a literal that
does not end, and no message says so. -/
theorem no_literal_is_left_open (src : String) :
    (∀ code cut, Segmentation.ofSource src code = .ok cut →
      ∀ segment ∈ cut.segments, segment.kind = .directive →
      ∀ part, IsPart segment.interior part →
        ∃ row, lexemes part = .ok row ∧
          ∀ lexeme ∈ row, lexeme.kind = .quoted →
            Text.Literal.decode (Text.Literal.body lexeme.text) ≠ .error .danglingBackslash) ∧
    ∀ code name? e, TemplateSet.ofSource src code name? = .error e →
      (∀ loc fault, e = .malformed loc fault → fault.isOpenLiteral = false) ∧
      ∀ words ∈ openLiteralWords, ¬ words.toList <+: e.explanation.toList := by
  constructor
  · intro code cut hcut segment hmem hkind part hpart
    have hout : Outside part :=
      hpart.outside ((isDirective_of_segmentation hcut hmem hkind).outside_interior hkind)
    obtain ⟨row, hrow⟩ := (outside_iff_exists_lexemesFrom 0 part).1 hout
    exact ⟨row, hrow, fun lexeme hlexeme hquoted =>
      decode_ne_danglingBackslash hrow hlexeme hquoted⟩
  · intro code name? e h
    rcases TemplateSet.blamed_of_ofSource h with hcut | ⟨cut, hcut, hblamed⟩
    · obtain ⟨loc, rfl⟩ := exists_loc_of_segmentation_eq_error hcut
      have hclash : ∀ words ∈ openLiteralWords,
          Clashes words "unterminated directive: missing \x7d\x7d" := by decide +kernel
      exact ⟨nofun, fun words hwords => (hclash words hwords).1⟩
    · obtain ⟨loc, fault, rfl, hfault⟩ := hblamed.closesLiterals hcut
      refine ⟨?_, fun words hwords => (Fault.clashes_message hfault hwords).1⟩
      rintro _ _ ⟨⟩
      exact hfault

end Stencil
