import Stencil.Proofs.Document.Language
import Stencil.Proofs.Expr.Language
import Stencil.Proofs.Expr.Places
import Stencil.Proofs.Printing.Document
import Stencil.Proofs.Segment.Exactness

/-!
# Where templates stand

Every node of a template stands somewhere in the code: a statement where its segment begins, a list
where its first item does or, if it has none, what ends it, and an expression where its lexemes are
(`StatementsAt`, `TemplateAt`). All lines are those of these places, but for one thing: an
expression does not count the lines inside its literals (`lines_follow_source`).
-/

namespace Stencil

open Stencil.Expr (Written trueLine countedLine literalLines)
open Text (newlines)

/-! ### Trees in their places

The relations are those of the grammar with the code in front of the segments as a further argument,
from which all lines are computed. They take the way in which lines are counted within an expression
as a parameter: the reader's way and the true one then give two instances of one relation. -/

/-- The line of the place behind some code. -/
def lineAfter (before : List Char) : Nat :=
  1 + newlines before

theorem lineAfter_append (before text : List Char) :
    lineAfter (before ++ text) = lineAfter before + newlines text := by
  rw [lineAfter, Text.newlines_append, lineAfter, Nat.add_assoc]

/-- **A text is an expression in its place**: it begins on a line, and its lexemes spell the
expression out. `line` gives the lines of the places in it. -/
def ExpressionAt (src : String) (line : Nat → List Lexeme → Nat) (start : Nat)
    (content : List Char) (expr : Node) : Prop :=
  ∃ row, lexemes content = .ok row ∧ Written src (line start) [] row [expr]

/-- **A text is what an inclusion says, in its place**: a name, and then blank text or an expression
that begins where the lexemes of the name end. -/
inductive InclusionAt (src : String) (line : Nat → List Lexeme → Nat) (start : Nat)
    (content : List Char) (name : Node) : Option Node → Prop
  /-- a name -/
  | alone {taken rest : List Lexeme} :
    lexemes content = .ok (taken ++ rest) → Written src (line start) [] taken [name] →
    Text.isBlank (lexemesText rest) = true → InclusionAt src line start content name none
  /-- a name and an expression for the data -/
  | data {taken rest : List Lexeme} {data : Node} :
    lexemes content = .ok (taken ++ rest) → Written src (line start) [] taken [name] →
    ExpressionAt src line (trueLine start taken) (lexemesText rest) data →
    InclusionAt src line start content name (some data)

/-- **Segments are statements in their places**, behind some code. What a directive says stands
between its lead, which is braces and perhaps a word, and its closing braces. -/
inductive StatementsAt (src : String) (line : Nat → List Lexeme → Nat) :
    List Char → List Segment → List Node → Prop
  /-- no statement -/
  | nil (before : List Char) : StatementsAt src line before [] []
  /-- text -/
  | text {before content : List Char} {segment : Segment} {rest : List Segment}
      {nodes : List Node} :
    segment.heading = .text content →
    StatementsAt src line (before ++ segment.text) rest nodes →
    StatementsAt src line before (segment :: rest)
      (.text ⟨src, lineAfter before⟩ (String.ofList content) :: nodes)
  /-- an interpolation -/
  | interpolation {before lead content : List Char} {segment : Segment} {expr : Node}
      {rest : List Segment} {nodes : List Node} :
    segment.heading = .interpolation content →
    segment.text = lead ++ (content ++ ['}', '}']) →
    ExpressionAt src line (lineAfter (before ++ lead)) content expr →
    StatementsAt src line (before ++ segment.text) rest nodes →
    StatementsAt src line before (segment :: rest)
      (.interpolation ⟨src, lineAfter before⟩ expr :: nodes)
  /-- an inclusion -/
  | inclusion {before lead content : List Char} {segment : Segment} {name : Node}
      {data : Option Node} {rest : List Segment} {nodes : List Node} :
    segment.heading = .inclusion content →
    segment.text = lead ++ (content ++ ['}', '}']) →
    InclusionAt src line (lineAfter (before ++ lead)) content name data →
    StatementsAt src line (before ++ segment.text) rest nodes →
    StatementsAt src line before (segment :: rest)
      (.inclusion ⟨src, lineAfter before⟩ name data :: nodes)
  /-- a block without alternative -/
  | block {before lead content : List Char} {opening closing : Segment} {kind : BlockKind}
      {expr : Node} {inside rest : List Segment} {body nodes : List Node} :
    opening.heading = .block kind content →
    opening.text = lead ++ (content ++ ['}', '}']) →
    ExpressionAt src line (lineAfter (before ++ lead)) content expr →
    StatementsAt src line (before ++ opening.text) inside body →
    closing.IsEnd →
    StatementsAt src line (before ++ segmentsText (opening :: (inside ++ [closing]))) rest nodes →
    StatementsAt src line before (opening :: (inside ++ closing :: rest))
      (.block ⟨src, lineAfter before⟩ kind expr
        (bodyTree src (lineAfter (before ++ opening.text)) body) none :: nodes)
  /-- a block with an alternative -/
  | blockElse {before lead content : List Char} {opening middle closing : Segment}
      {kind : BlockKind} {expr : Node} {inside outside rest : List Segment}
      {body orElse nodes : List Node} :
    opening.heading = .block kind content →
    opening.text = lead ++ (content ++ ['}', '}']) →
    ExpressionAt src line (lineAfter (before ++ lead)) content expr →
    StatementsAt src line (before ++ opening.text) inside body →
    middle.IsElse →
    StatementsAt src line (before ++ segmentsText (opening :: (inside ++ [middle]))) outside
      orElse →
    closing.IsEnd →
    StatementsAt src line
      (before ++ segmentsText (opening :: (inside ++ middle :: (outside ++ [closing])))) rest
      nodes →
    StatementsAt src line before (opening :: (inside ++ middle :: (outside ++ closing :: rest)))
      (.block ⟨src, lineAfter before⟩ kind expr
        (bodyTree src (lineAfter (before ++ opening.text)) body)
        (some (bodyTree src
          (lineAfter (before ++ segmentsText (opening :: (inside ++ [middle])))) orElse)) :: nodes)

/-- **Segments are a body in its place.** The list around its statements is located where the code
before it ends. -/
def BodyAt (src : String) (line : Nat → List Lexeme → Nat) (before : List Char)
    (segments : List Segment) (tree : Node) : Prop :=
  ∃ nodes, StatementsAt src line before segments nodes ∧
    tree = bodyTree src (lineAfter before) nodes

/-- **A template in its place** among the segments of a document: a definition of it, or the body
that is named from outside. -/
inductive TemplateAt (src : String) (line : Nat → List Lexeme → Nat) (name? : Option String)
    (segments : List Segment) (name : String) (tree : Node) : Prop
  /-- between the directive that names it and an `end` -/
  | defined {earlier inside later : List Segment} {opening closing : Segment}
      {content : List Char} {loc : Location} :
    segments = earlier ++ opening :: (inside ++ closing :: later) →
    opening.heading = .define content →
    Expr.read src content opening.line = .ok (.literal loc name) →
    closing.IsEnd →
    BodyAt src line (segmentsText earlier ++ opening.text) inside tree →
    TemplateAt src line name? segments name tree
  /-- behind all definitions -/
  | named {earlier rest : List Segment} {first : Segment} {items : List Item} :
    name? = some name →
    segments = earlier ++ first :: rest →
    Definitions src earlier items →
    first.EndsDefinitions →
    BodyAt src line (segmentsText earlier) (first :: rest) tree →
    TemplateAt src line name? segments name tree

/-- An interpolation of a body stands in one of its directives. -/
theorem StatementsAt.exists_expressionAt {src : String} {line : Nat → List Lexeme → Nat}
    {before : List Char} {segments : List Segment} {nodes : List Node} {loc : Location}
    {expr : Node} (h : StatementsAt src line before segments nodes)
    (hmem : .interpolation loc expr ∈ nodes) :
    ∃ segment ∈ segments, ∃ behind content, segment.heading = .interpolation content ∧
      ExpressionAt src line (lineAfter behind) content expr := by
  induction h with
  | nil => cases hmem
  | interpolation hheading _ hexpr _ ih =>
    rcases List.mem_cons.1 hmem with heq | hmem
    · cases heq
      exact ⟨_, List.mem_cons_self, _, _, hheading, hexpr⟩
    · obtain ⟨segment, hsegment, hat⟩ := ih hmem
      exact ⟨segment, List.mem_cons_of_mem _ hsegment, hat⟩
  | text _ _ ih | inclusion _ _ _ _ ih | block _ _ _ _ _ _ _ ih
  | blockElse _ _ _ _ _ _ _ _ _ _ ih =>
    obtain ⟨segment, hsegment, hat⟩ := ih (by simpa using hmem)
    exact ⟨segment, by simp [hsegment], hat⟩

/-- A template that is an interpolation stands in a directive. -/
theorem TemplateAt.exists_expressionAt {src : String} {line : Nat → List Lexeme → Nat}
    {name? : Option String} {segments : List Segment} {name : String} {loc : Location}
    {expr : Node} (h : TemplateAt src line name? segments name (.interpolation loc expr)) :
    ∃ segment ∈ segments, ∃ behind content, segment.heading = .interpolation content ∧
      ExpressionAt src line (lineAfter behind) content expr := by
  have body {before : List Char} {inside : List Segment}
      (hbody : BodyAt src line before inside (.interpolation loc expr)) :
      ∃ segment ∈ inside, ∃ behind content, segment.heading = .interpolation content ∧
        ExpressionAt src line (lineAfter behind) content expr := by
    obtain ⟨nodes, hnodes, htree⟩ := hbody
    have hmem : .interpolation loc expr ∈ nodes := by
      rcases bodyTree_cases src (lineAfter before) nodes with ⟨only, rfl, honly⟩ | ⟨-, hlist⟩
      · exact List.mem_singleton.2 (htree.trans honly)
      · cases htree.trans hlist
    exact hnodes.exists_expressionAt hmem
  cases h with
  | defined hsegments _ _ _ hbody =>
    obtain ⟨segment, hmem, hat⟩ := body hbody
    exact ⟨segment, by simp [hsegments, hmem], hat⟩
  | named _ hsegments _ _ hbody =>
    obtain ⟨segment, hmem, hat⟩ := body hbody
    exact ⟨segment, hsegments ▸ List.mem_append_right _ hmem, hat⟩

/-! ### Segments in their places

The line that a segment has been given is the line of its place. It is kept when segments are taken
off the front and their text is put behind the code before, which is all that the relations above
do. -/

/-- **Segments that stand behind some code**: each is on the line of its place, and the directives
are complete. -/
structure InPlace (before : List Char) (segments : List Segment) : Prop where
  /-- a segment is on the line that the code before it has come to -/
  line_eq : ∀ earlier segment later, segments = earlier ++ segment :: later →
    segment.line = lineAfter (before ++ segmentsText earlier)
  /-- a directive has its end -/
  complete : ∀ segment ∈ segments, segment.kind = .directive → IsDirective segment.text

namespace InPlace

variable {before : List Char} {segment : Segment} {segments more : List Segment}

theorem line_head (h : InPlace before (segment :: segments)) :
    segment.line = lineAfter before := by
  simpa using h.line_eq [] segment segments rfl

/-- The first of segments in their places are in theirs. -/
theorem of_append (h : InPlace before (segments ++ more)) : InPlace before segments where
  line_eq earlier segment later heq :=
    h.line_eq earlier segment (later ++ more) (by simp [heq])
  complete segment hmem := h.complete segment (List.mem_append_left more hmem)

/-- So do the others, behind the text of those. -/
theorem behind {all : List Segment} (h : InPlace before all) (hall : all = segments ++ more) :
    InPlace (before ++ segmentsText segments) more where
  line_eq earlier segment later heq := by
    rw [List.append_assoc, ← segmentsText_append]
    exact h.line_eq (segments ++ earlier) segment later (by simp [hall, heq])
  complete segment hmem := h.complete segment (by simp [hall, hmem])

theorem tail (h : InPlace before (segment :: segments)) :
    InPlace (before ++ segment.text) segments := by
  have hbehind : InPlace (before ++ segmentsText [segment]) segments := h.behind rfl
  simpa using hbehind

/-- A body begins where the code before it ends. -/
theorem lineOf_eq {stop : Segment} (h : InPlace before (segments ++ stop :: more)) :
    Body.lineOf stop.line segments = lineAfter before := by
  cases segments with
  | nil => exact h.line_head
  | cons segment segments => exact h.line_head

end InPlace

/-- The segments of a source stand where they are cut. -/
theorem Dissects.inPlace {code rest : List Char} {segments : List Segment}
    (h : Dissects 1 code segments rest) : InPlace [] segments where
  line_eq earlier segment later heq := by
    simpa [lineAfter] using h.line_eq earlier segment later heq
  complete segment hmem hkind := (h.isFirst segment hmem hkind).complete

/-! ### Readings in their places

A directive stands in its segment behind braces and perhaps a keyword, which have no line feeds in
them. So what it says begins on the line of the segment, and the reader, which starts from that
line, starts from the right one. -/

/-- **A directive is read with the lines of places**, on whatever line it begins. How lines are
given to places is a parameter: as the reader counts them, or as they are. -/
structure Segment.Spells (src : String) (line : Nat → List Lexeme → Nat) (segment : Segment) :
    Prop where
  /-- where it is an expression -/
  expression : ∀ start expr, Expr.read src segment.heading.content start = .ok expr →
    ExpressionAt src line start segment.heading.content expr
  /-- where it is an inclusion -/
  inclusion : ∀ start name data,
    Expr.readInclusion src segment.heading.content start = .ok (name, data) →
    InclusionAt src line start segment.heading.content name data

/-- The words that begin structural directives are on one line. -/
theorem newlines_of_mem_headings {entry : String × (List Char → Heading)}
    (h : entry ∈ headings) : newlines entry.1.toList = 0 := by
  have hwords : ∀ entry ∈ headings, newlines entry.1.toList = 0 := by
    simp [headings, newlines]
  exact hwords entry h

/-- **What a directive says stands between its lead and its closing braces**, and begins on the line
of the directive. -/
theorem InPlace.exists_lead {before : List Char} {segment : Segment} {rest : List Segment}
    (h : InPlace before (segment :: rest)) (hkind : segment.kind = .directive) :
    ∃ lead, segment.text = lead ++ (segment.heading.content ++ ['}', '}']) ∧
      segment.line = lineAfter (before ++ lead) := by
  obtain ⟨inner, -, htext⟩ := h.complete segment List.mem_cons_self hkind
  have hline := h.line_head
  have hinterior : segment.interior = inner := by
    obtain ⟨kind, text, line⟩ := segment
    obtain rfl : kind = .directive := hkind
    obtain rfl : text = Node.directive inner := htext
    exact Segment.interior_directive inner line
  -- the whole interior, or what a keyword leaves of it
  rcases Segment.content_cases hkind with hwhole | ⟨entry, hentry, hafter⟩
  · refine ⟨['{', '{'], ?_, ?_⟩
    · rw [hwhole, hinterior, htext]
      rfl
    · rw [hline, lineAfter, lineAfter, Text.newlines_append]
      rfl
  · refine ⟨'{' :: '{' :: entry.1.toList, ?_, ?_⟩
    · rw [htext, ← hinterior, ← append_of_afterWord? hafter]
      simp [Node.directive]
    · have hword : newlines ('{' :: '{' :: entry.1.toList) = 0 := by
        simpa [newlines] using newlines_of_mem_headings hentry
      rw [hline, lineAfter, lineAfter, Text.newlines_append, hword, Nat.add_zero]

section Statements

variable {src : String} {line : Nat → List Lexeme → Nat} {before : List Char} {segment : Segment}
  {rest : List Segment}

/-- A directive that is an expression is one in its place. -/
theorem InPlace.exists_expressionAt {expr : Node} (h : InPlace before (segment :: rest))
    (hkind : segment.kind = .directive) (hspells : segment.Spells src line)
    (hread : Expr.read src segment.heading.content segment.line = .ok expr) :
    ∃ lead, segment.text = lead ++ (segment.heading.content ++ ['}', '}']) ∧
      ExpressionAt src line (lineAfter (before ++ lead)) segment.heading.content expr := by
  obtain ⟨lead, htext, hline⟩ := h.exists_lead hkind
  refine ⟨lead, htext, ?_⟩
  rw [← hline]
  exact hspells.expression segment.line expr hread

/-- A directive that is an inclusion is one in its place. -/
theorem InPlace.exists_inclusionAt {name : Node} {data : Option Node}
    (h : InPlace before (segment :: rest)) (hkind : segment.kind = .directive)
    (hspells : segment.Spells src line)
    (hread : Expr.readInclusion src segment.heading.content segment.line = .ok (name, data)) :
    ∃ lead, segment.text = lead ++ (segment.heading.content ++ ['}', '}']) ∧
      InclusionAt src line (lineAfter (before ++ lead)) segment.heading.content name data := by
  obtain ⟨lead, htext, hline⟩ := h.exists_lead hkind
  refine ⟨lead, htext, ?_⟩
  rw [← hline]
  exact hspells.inclusion segment.line name data hread

/-- **Statements that stand behind some code are statements in their places**, with the lines that
their directives are read with. -/
theorem Statements.inPlace {segments : List Segment} {nodes : List Node}
    (h : Statements src segments nodes) {before : List Char} (hplace : InPlace before segments)
    (hspells : ∀ segment ∈ segments, segment.kind = .directive → segment.Spells src line) :
    StatementsAt src line before segments nodes := by
  induction h generalizing before with
  | nil => exact .nil before
  | text hheading _ ih =>
    rw [hplace.line_head]
    exact .text hheading (ih hplace.tail (List.forall_mem_cons.1 hspells).2)
  | @interpolation segment content expr rest nodes hheading hread _ ih =>
    obtain ⟨hspell, hspells⟩ := List.forall_mem_cons.1 hspells
    have hkind := Segment.kind_eq_directive hheading (by simp)
    obtain rfl : segment.heading.content = content := by rw [hheading, Heading.content]
    obtain ⟨lead, htext, hexpr⟩ := hplace.exists_expressionAt hkind (hspell hkind) hread
    rw [hplace.line_head]
    exact .interpolation hheading htext hexpr (ih hplace.tail hspells)
  | @inclusion segment content name data rest nodes hheading hread _ ih =>
    obtain ⟨hspell, hspells⟩ := List.forall_mem_cons.1 hspells
    have hkind := Segment.kind_eq_directive hheading (by simp)
    obtain rfl : segment.heading.content = content := by rw [hheading, Heading.content]
    obtain ⟨lead, htext, hinclusion⟩ := hplace.exists_inclusionAt hkind (hspell hkind) hread
    rw [hplace.line_head]
    exact .inclusion hheading htext hinclusion (ih hplace.tail hspells)
  | @block opening closing kind content expr inside rest body nodes hheading hread _ hend _ ihbody
      ih =>
    obtain ⟨hspell, hspells⟩ := List.forall_mem_cons.1 hspells
    have hkind := Segment.kind_eq_directive hheading (by simp)
    obtain rfl : opening.heading.content = content := by rw [hheading, Heading.content]
    obtain ⟨lead, htext, hexpr⟩ := hplace.exists_expressionAt hkind (hspell hkind) hread
    have hrest : InPlace (before ++ segmentsText (opening :: (inside ++ [closing]))) rest :=
      hplace.behind (by simp)
    rw [hplace.line_head, hplace.tail.lineOf_eq]
    exact .block hheading htext hexpr
      (ihbody hplace.tail.of_append fun other hmem => hspells other (by simp [hmem])) hend
      (ih hrest fun other hmem => hspells other (by simp [hmem]))
  | @blockElse opening middle closing kind content expr inside outside rest body orElse nodes
      hheading hread _ helse _ hend _ ihbody ihelse ih =>
    obtain ⟨hspell, hspells⟩ := List.forall_mem_cons.1 hspells
    have hkind := Segment.kind_eq_directive hheading (by simp)
    obtain rfl : opening.heading.content = content := by rw [hheading, Heading.content]
    obtain ⟨lead, htext, hexpr⟩ := hplace.exists_expressionAt hkind (hspell hkind) hread
    have houtside : InPlace (before ++ segmentsText (opening :: (inside ++ [middle])))
        (outside ++ closing :: rest) := hplace.behind (by simp)
    have hrest : InPlace
        (before ++ segmentsText (opening :: (inside ++ middle :: (outside ++ [closing])))) rest :=
      hplace.behind (by simp)
    rw [hplace.line_head, hplace.tail.lineOf_eq, houtside.lineOf_eq]
    exact .blockElse hheading htext hexpr
      (ihbody hplace.tail.of_append fun other hmem => hspells other (by simp [hmem])) helse
      (ihelse houtside.of_append fun other hmem => hspells other (by simp [hmem])) hend
      (ih hrest fun other hmem => hspells other (by simp [hmem]))

end Statements

/-! ### Lines

The reader counts the line feeds of white space. The lexemes that may have others are literals, so
both ways of counting agree on every expression without line feeds in its literals. -/

section Lines

variable {src : String} {segment : Segment}

/-- **Directives are read with the lines that the reader counts**, without any condition on them. -/
theorem Segment.spells_countedLine (src : String) (segment : Segment) :
    segment.Spells src countedLine where
  expression _ _ h := Expr.exists_written_of_read h
  inclusion start name data h := by
    obtain ⟨reading, hreading, rfl, hrest⟩ := Expr.exists_reading_of_readInclusion h
    obtain ⟨taken, htaken, hname⟩ := Expr.exists_written_of_readFirst hreading
    rcases hrest with ⟨hblank, rfl⟩ | ⟨expr, hread, rfl⟩
    · exact .alone htaken hname hblank
    · rw [Expr.Reading.remainder, Expr.upTo_lexemesText htaken] at hread
      exact .data htaken hname (Expr.exists_written_of_read hread)

/-- An expression without lines in its literals is one with the lines of all places. -/
theorem ExpressionAt.trueLine {start : Nat} {content : List Char} {expr : Node}
    (h : ExpressionAt src countedLine start content expr)
    (hlines : ∀ row, lexemes content = .ok row → literalLines row = 0) :
    ExpressionAt src Expr.trueLine start content expr := by
  obtain ⟨row, hrow, hwritten⟩ := h
  have hwhole : lexemes content = .ok (row ++ []) := by rwa [List.append_nil]
  exact ⟨row, hrow, hwritten.trueLine hwhole (hlines row hrow)⟩

/-- So is an inclusion. -/
theorem InclusionAt.trueLine {start : Nat} {content : List Char} {name : Node}
    {data : Option Node} (h : InclusionAt src countedLine start content name data)
    (hlines : ∀ row, lexemes content = .ok row → literalLines row = 0) :
    InclusionAt src Expr.trueLine start content name data := by
  have split {taken rest : List Lexeme} (htaken : lexemes content = .ok (taken ++ rest)) :
      literalLines taken = 0 ∧ literalLines rest = 0 := by
    have hrow := hlines _ htaken
    rwa [Expr.literalLines_append, Nat.add_eq_zero_iff] at hrow
  cases h with
  | alone htaken hname hblank =>
    exact .alone htaken (hname.trueLine htaken (split htaken).1) hblank
  | data htaken hname hdata =>
    refine .data htaken (hname.trueLine htaken (split htaken).1) (hdata.trueLine ?_)
    intro row hrow
    obtain ⟨offset, hrest⟩ := exists_lexemesFrom_of_append htaken
    rw [Expr.literalLines_eq hrow hrest]
    exact (split htaken).2

/-- **Directives without lines in their literals are read with the lines of all places**: then there
is no line feed that the reader fails to count. -/
theorem Segment.spells_trueLine
    (hlines : ∀ row, lexemes segment.heading.content = .ok row → literalLines row = 0) :
    segment.Spells src trueLine where
  expression start expr h :=
    ((segment.spells_countedLine src).expression start expr h).trueLine hlines
  inclusion start name data h :=
    ((segment.spells_countedLine src).inclusion start name data h).trueLine hlines

/-! ### Whole sources -/

variable {line : Nat → List Lexeme → Nat} {name? : Option String} {segments : List Segment}

/-- Bodies that stand behind some code are bodies in their places. -/
theorem Statements.bodyAt {nodes : List Node} {before : List Char}
    (h : Statements src segments nodes) (hplace : InPlace before segments)
    (hspells : ∀ segment ∈ segments, segment.kind = .directive → segment.Spells src line) :
    BodyAt src line before segments (bodyTree src (lineAfter before) nodes) :=
  ⟨nodes, h.inPlace hplace hspells, rfl⟩

/-- **Templates of definitions that stand behind some code are in their places.** -/
theorem Definitions.templateAt {items : List Item} (h : Definitions src segments items)
    {earlier later all : List Segment} (hall : all = earlier ++ (segments ++ later))
    (hplace : InPlace [] all)
    (hspells : ∀ segment ∈ all, segment.kind = .directive → segment.Spells src line)
    {name : String} {tree : Node} (hmem : (name, tree) ∈ entries items) :
    TemplateAt src line name? all name tree := by
  induction h generalizing earlier with
  | nil => cases hmem
  | @blank segment rest items _ _ ih =>
    have hbehind : all = (earlier ++ [segment]) ++ (rest ++ later) := by simp [hall]
    exact ih hbehind hmem
  | @definition opening closing content loc other inside rest body items hheading hread hbody hend _
      ih =>
    rcases List.mem_cons.1 hmem with heq | hmem
    · obtain ⟨rfl, rfl⟩ := Prod.mk.inj heq
      have hsplit : all = earlier ++ opening :: (inside ++ closing :: (rest ++ later)) := by
        simp [hall]
      have hinside : InPlace ([] ++ segmentsText (earlier ++ [opening]))
          (inside ++ closing :: (rest ++ later)) := hplace.behind (by simp [hsplit])
      have hbefore : [] ++ segmentsText (earlier ++ [opening])
          = segmentsText earlier ++ opening.text := by simp
      rw [hbefore] at hinside
      refine .defined hsplit hheading hread hend ?_
      rw [hinside.lineOf_eq]
      exact hbody.bodyAt hinside.of_append fun segment hmem =>
        hspells segment (by simp [hsplit, hmem])
    · have hbehind : all = (earlier ++ opening :: (inside ++ [closing])) ++ (rest ++ later) := by
        simp [hall]
      exact ih hbehind hmem

/-- **Templates of a document that stands behind some code are in their places.** -/
theorem Document.templateAt {items : List Item} (h : Document src name? segments items)
    (hplace : InPlace [] segments)
    (hspells : ∀ segment ∈ segments, segment.kind = .directive → segment.Spells src line)
    {name : String} {tree : Node} (hmem : (name, tree) ∈ entries items) :
    TemplateAt src line name? segments name tree := by
  cases h with
  | definitions hdefinitions =>
    have hall : segments = [] ++ (segments ++ []) := by simp
    exact hdefinitions.templateAt hall hplace hspells hmem
  | @named given earlier rest first items body hdefinitions hfirst hbody =>
    rw [entries_append, List.mem_append] at hmem
    rcases hmem with hmem | hmem
    · have hall : earlier ++ first :: rest = [] ++ (earlier ++ first :: rest) := rfl
      exact hdefinitions.templateAt hall hplace hspells hmem
    · obtain ⟨rfl, rfl⟩ : name = given ∧ tree = bodyTree src first.line body := by
        simpa [entries, Item.entry?] using hmem
      have hbehind : InPlace (segmentsText earlier) (first :: rest) := by
        simpa using hplace.behind rfl
      refine .named rfl rfl hdefinitions hfirst ?_
      rw [hbehind.line_head]
      exact hbody.bodyAt hbehind fun segment hmem => hspells segment (by simp [hmem])

end Lines

namespace TemplateSet

variable {src code : String} {name? : Option String} {set : TemplateSet}

/-- **How a source was read**: it is cut into segments, but for blank text at its end, and they are
a document. -/
theorem exists_cut_of_ofSource (h : ofSource src code name? = .ok set) :
    ∃ cut items blank?, Segmentation.ofSource src (Text.normalize code.toList) = .ok cut ∧
      Dissects 1 (Text.normalize code.toList) (cut.segments ++ Option.toList blank?) [] ∧
      (∀ last ∈ cut.segments.getLast?, last.isBlank = false) ∧
      Document src name? cut.segments items ∧ set.templates.Holds (entries items) := by
  obtain ⟨segments, items, hsegments, hdocument, hholds⟩ := exists_document_of_ofSource h
  have hcut : Segmentation.ofSource src (Text.normalize code.toList)
      = .ok ⟨dropTrailingBlank segments, 1 + newlines (Text.normalize code.toList)⟩ := by
    rw [Segmentation.ofSource_eq, hsegments, Except.map]
  have hdissects := dissects_of_segments hsegments
  obtain ⟨blank?, hblank, -, hkept⟩ := hdissects.exists_blank
  rw [hblank] at hdissects
  exact ⟨_, items, blank?, hcut, hdissects, hkept, hdocument, hholds⟩

/-- **The lines of a source that is read.** Statements and lists are on the lines of their places.
Expressions are on lines that count, from the place of their directive on, the spacing only; what
these lack are the lines inside literals. So all nodes are on the lines of their places if no
literal has lines in it. -/
theorem lines_follow_source (h : ofSource src code name? = .ok set) :
    ∃ cut blank, Segmentation.ofSource src (Text.normalize code.toList) = .ok cut ∧
      segmentsText cut.segments ++ blank = Text.normalize code.toList ∧
      (∀ name tree, set.template? name = some tree →
        TemplateAt src countedLine name? cut.segments name tree) ∧
      (∀ segment ∈ cut.segments, segment.kind = .directive →
        ∀ row, lexemes segment.heading.content = .ok row → ∀ before, before <+: row → ∀ start,
          trueLine start before = countedLine start before + literalLines before) ∧
      ((∀ segment ∈ cut.segments, segment.kind = .directive →
          ∀ row, lexemes segment.heading.content = .ok row → literalLines row = 0) →
        ∀ name tree, set.template? name = some tree →
          TemplateAt src trueLine name? cut.segments name tree) := by
  obtain ⟨cut, items, blank?, hcut, hdissects, -, hdocument, hholds⟩ := exists_cut_of_ofSource h
  have happend := hdissects.append_eq
  rw [segmentsText_append, List.append_nil] at happend
  -- the segments that are kept are the first ones, so they stand where they were cut
  have hplace : InPlace [] cut.segments := hdissects.inPlace.of_append
  have hmem {name : String} {tree : Node} (htree : set.template? name = some tree) :
      (name, tree) ∈ entries items := (hholds.find?_eq_some_iff name tree).1 htree
  refine ⟨cut, _, hcut, happend, ?_, ?_, ?_⟩
  · intro name tree htree
    exact hdocument.templateAt hplace (fun segment _ _ => segment.spells_countedLine src)
      (hmem htree)
  · intro segment _ _ row hrow before hbefore start
    exact Expr.trueLine_eq hrow hbefore.subset start
  · intro hlines name tree htree
    exact hdocument.templateAt hplace
      (fun segment hsegment hkind => Segment.spells_trueLine (hlines segment hsegment hkind))
      (hmem htree)

/-- An argument on the line behind that of its call. -/
theorem second_argument_is_on_third_line :
    ∃ set cut, ofSource "m" "Hi\n\x7b\x7b f(.a,\n .b) \x7d\x7d" (some "m") = .ok set ∧
      Segmentation.ofSource "m"
        (Text.normalize "Hi\n\x7b\x7b f(.a,\n .b) \x7d\x7d".toList) = .ok cut ∧
      TemplateAt "m" trueLine (some "m") cut.segments "m"
        (.list ⟨"m", 1⟩ [.text ⟨"m", 1⟩ "Hi\n", .interpolation ⟨"m", 2⟩
          (.call ⟨"m", 2⟩ "f" [.reference ⟨"m", 2⟩ ["a"], .reference ⟨"m", 3⟩ ["b"]])]) := by
  obtain ⟨set, hset, hentries⟩ := exists_of_entries_eq
    (show (ofSource "m" "Hi\n\x7b\x7b f(.a,\n .b) \x7d\x7d" (some "m")).toOption.map
        (·.templates.entries)
      = some [("m", .list ⟨"m", 1⟩ [.text ⟨"m", 1⟩ "Hi\n", .interpolation ⟨"m", 2⟩
          (.call ⟨"m", 2⟩ "f" [.reference ⟨"m", 2⟩ ["a"], .reference ⟨"m", 3⟩ ["b"]])])]
      by decide +kernel)
  obtain ⟨cut, -, hcut, -, -, -, htrue⟩ := lines_follow_source hset
  refine ⟨set, cut, hset, hcut, htrue ?_ "m" _ (by rw [template?, NameMap.find?, hentries]; rfl)⟩
  have hall : (Segmentation.ofSource "m"
      (Text.normalize "Hi\n\x7b\x7b f(.a,\n .b) \x7d\x7d".toList)).toOption.all (fun cut =>
        cut.segments.all fun segment =>
          (lexemes segment.heading.content).toOption.all (literalLines · = 0)) = true := by
    decide +kernel
  rw [hcut] at hall
  intro segment hmem _ row hrow
  have hsegment := List.all_eq_true.1 hall segment hmem
  rw [hrow] at hsegment
  exact of_decide_eq_true hsegment

/-- A literal with a line feed in it, as the third lexeme of a call. -/
def literalOverLines : Lexeme := ⟨.quoted, ['"', 'a', '\n', 'b', '"'], 2⟩

/-- The lexemes of a call that has a reference behind that literal. -/
def callOverLines : List Lexeme :=
  [⟨.word, ['f'], 0⟩, ⟨.openParen, ['('], 1⟩, literalOverLines, ⟨.comma, [','], 7⟩,
    ⟨.space, [' '], 8⟩, ⟨.word, ['.', 'x'], 9⟩, ⟨.closeParen, [')'], 11⟩]

/-- **Not all nodes are on the lines of their places.** Behind a literal with a line feed an
argument is counted one line too early. -/
theorem not_all_lines_are_true :
    ¬ ∀ (src code : String) (name? : Option String) (set : TemplateSet),
      ofSource src code name? = .ok set →
      ∃ cut, Segmentation.ofSource src (Text.normalize code.toList) = .ok cut ∧
        ∀ name tree, set.template? name = some tree →
          TemplateAt src trueLine name? cut.segments name tree := by
  intro h
  obtain ⟨set, hset, hentries⟩ := exists_of_entries_eq
    (show (ofSource "m" "\x7b\x7bf(\"a\nb\", .x)\x7d\x7d" (some "m")).toOption.map
        (·.templates.entries)
      = some [("m", .interpolation ⟨"m", 1⟩ (.call ⟨"m", 1⟩ "f"
          [.literal ⟨"m", 1⟩ "a\nb", .reference ⟨"m", 1⟩ ["x"]]))] by decide +kernel)
  obtain ⟨cut, hcut, htrees⟩ := h _ _ _ set hset
  have hrow : ∀ segment ∈ cut.segments,
      (lexemes segment.heading.content).toOption = some callOverLines := by
    have hall : (Segmentation.ofSource "m"
        (Text.normalize "\x7b\x7bf(\"a\nb\", .x)\x7d\x7d".toList)).toOption.all (fun cut =>
          cut.segments.all fun segment =>
            (lexemes segment.heading.content).toOption = some callOverLines) = true := by
      decide +kernel
    rw [hcut] at hall
    exact fun segment hmem => of_decide_eq_true (List.all_eq_true.1 hall segment hmem)
  obtain ⟨segment, hsegment, before, content, hheading, words, hwords, hwritten⟩ :=
    (htrees "m" _ (by rw [template?, NameMap.find?, hentries]; rfl)).exists_expressionAt
  obtain rfl : words = callOverLines := by
    have hsome := hrow segment hsegment
    rw [hheading, Heading.content, hwords] at hsome
    exact Option.some.inj hsome
  obtain ⟨start, inner, hinner, hargs⟩ := hwritten.exists_arguments (by decide)
  obtain ⟨first, comma, others, rfl, hliteral, hreference⟩ := hargs.exists_comma
  -- the literal stands before the reference
  obtain ⟨lexeme, hlexeme, hkind⟩ := hliteral.exists_quoted
  obtain rfl : lexeme = literalOverLines := by
    have hmem : lexeme ∈ callOverLines := hinner.subset (by simp [hlexeme])
    simp only [callOverLines, List.mem_cons, List.not_mem_nil, or_false] at hmem
    rcases hmem with rfl | rfl | rfl | rfl | rfl | rfl | rfl <;> first | rfl | cases hkind
  obtain ⟨place, hplace, -, hloc⟩ :=
    hreference.exists_place _ (List.mem_singleton_self _) _ (Node.mem_subtrees_self _)
  have hquoted : literalOverLines ∈ place := hplace.subset (by simp [hlexeme])
  have hline : 1 = lineAfter before + newlines (lexemesText place) :=
    congrArg Location.line hloc
  have hlines : 1 ≤ newlines (lexemesText place) := Expr.newlines_le_of_mem hquoted
  rw [lineAfter] at hline
  omega

end TemplateSet

end Stencil
