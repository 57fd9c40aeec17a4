import Stencil.Document.Reader

/-!
# The grammar of documents

What the segments of a source may be, stated apart from any reader:

    document   ::= (blank text | definition)* [statement+]
    definition ::= `define` name, statement*, `end`
    statement  ::= text | interpolation | inclusion
                 | header, statement*, [`else`, statement*], `end`

The expressions of the directives are what `Expr.read` and `Expr.readInclusion` accept, and `else`
and `end` stand bare. Next to the segments each relation has the trees that they mean. No segment is
lost on the way: the tree of a body, laid out again in the order of the source, says of every
segment what it announced (`Statements.pieces_eq`, `Document.pieces_eq`).
-/

namespace Stencil

/-- **The tree of a body** that begins on a line: its only statement, or the list of all. An empty
body is the empty list. -/
def bodyTree (src : String) (line : Nat) : List Node → Node
  | [only] => only
  | items => .list ⟨src, line⟩ items

/-- It is one or the other. -/
theorem bodyTree_cases (src : String) (line : Nat) (nodes : List Node) :
    (∃ only, nodes = [only] ∧ bodyTree src line nodes = only) ∨
      (nodes.length ≠ 1 ∧ bodyTree src line nodes = .list ⟨src, line⟩ nodes) := by
  rcases nodes with - | ⟨node, - | ⟨other, nodes⟩⟩
  · exact .inr ⟨by simp, rfl⟩
  · exact .inl ⟨node, rfl, rfl⟩
  · exact .inr ⟨by simp, rfl⟩

/-- The part of a segment that its heading gives. -/
def Heading.content : Heading → List Char
  | .text content | .interpolation content | .inclusion content | .block _ content
  | .define content | .orElse content | .close content => content

/-- What a directive's heading gives is its interior, or what follows a word at its beginning. -/
theorem Segment.content_cases {segment : Segment} (hkind : segment.kind = .directive) :
    segment.heading.content = segment.interior ∨
      ∃ entry ∈ headings, afterWord? entry.1 segment.interior = some segment.heading.content := by
  obtain ⟨kind, text, line⟩ := segment
  obtain rfl : kind = .directive := hkind
  have hcontent : ∀ entry ∈ headings, ∀ rest, (entry.2 rest).content = rest := by
    simp [headings, Heading.content]
  rw [Segment.heading]
  rcases Heading.ofInterior_cases (Segment.mk .directive text line).interior with
    hwhole | ⟨entry, hentry, rest, hafter, hword⟩
  · rw [hwhole]
    exact .inl rfl
  · rw [hword, hcontent entry hentry rest]
    exact .inr ⟨entry, hentry, hafter⟩

/-- A segment that announces anything but text is a directive. -/
theorem Segment.kind_eq_directive {segment : Segment} {heading : Heading}
    (h : segment.heading = heading) (hne : ∀ content, heading ≠ .text content) :
    segment.kind = .directive := by
  obtain ⟨kind, text, line⟩ := segment
  cases kind with
  | text => exact absurd h.symm (hne text)
  | directive => rfl

/-- **The segment ends a body or its alternative**: it is an `end` with nothing behind the word but
white space. -/
def Segment.IsEnd (segment : Segment) : Prop :=
  ∃ content, segment.heading = .close content ∧ Text.isBlank content = true

/-- **The segment begins an alternative**: it is an `else` with nothing behind the word but white
space. -/
def Segment.IsElse (segment : Segment) : Prop :=
  ∃ content, segment.heading = .orElse content ∧ Text.isBlank content = true

/-- **Segments that are a row of statements**, and their trees. A body inside a block begins on the
line of its first segment, or of what ends it if it is empty. -/
inductive Statements (src : String) : List Segment → List Node → Prop
  /-- no statement -/
  | nil : Statements src [] []
  /-- text stands as it is -/
  | text {segment : Segment} {content : List Char} {rest : List Segment} {nodes : List Node} :
    segment.heading = .text content →
    Statements src rest nodes →
    Statements src (segment :: rest) (.text ⟨src, segment.line⟩ (String.ofList content) :: nodes)
  /-- an expression is interpolated -/
  | interpolation {segment : Segment} {content : List Char} {expr : Node} {rest : List Segment}
      {nodes : List Node} :
    segment.heading = .interpolation content →
    Expr.read src content segment.line = .ok expr →
    Statements src rest nodes →
    Statements src (segment :: rest) (.interpolation ⟨src, segment.line⟩ expr :: nodes)
  /-- a template is run in place -/
  | inclusion {segment : Segment} {content : List Char} {name : Node} {data : Option Node}
      {rest : List Segment} {nodes : List Node} :
    segment.heading = .inclusion content →
    Expr.readInclusion src content segment.line = .ok (name, data) →
    Statements src rest nodes →
    Statements src (segment :: rest) (.inclusion ⟨src, segment.line⟩ name data :: nodes)
  /-- a block without alternative -/
  | block {opening closing : Segment} {kind : BlockKind} {content : List Char} {expr : Node}
      {inside rest : List Segment} {body nodes : List Node} :
    opening.heading = .block kind content →
    Expr.read src content opening.line = .ok expr →
    Statements src inside body →
    closing.IsEnd →
    Statements src rest nodes →
    Statements src (opening :: (inside ++ closing :: rest))
      (.block ⟨src, opening.line⟩ kind expr (bodyTree src (Body.lineOf closing.line inside) body)
        none :: nodes)
  /-- a block with an alternative -/
  | blockElse {opening middle closing : Segment} {kind : BlockKind} {content : List Char}
      {expr : Node} {inside outside rest : List Segment} {body orElse nodes : List Node} :
    opening.heading = .block kind content →
    Expr.read src content opening.line = .ok expr →
    Statements src inside body →
    middle.IsElse →
    Statements src outside orElse →
    closing.IsEnd →
    Statements src rest nodes →
    Statements src (opening :: (inside ++ middle :: (outside ++ closing :: rest)))
      (.block ⟨src, opening.line⟩ kind expr (bodyTree src (Body.lineOf middle.line inside) body)
        (some (bodyTree src (Body.lineOf closing.line outside) orElse)) :: nodes)

/-! ### Whole documents

Definitions come first and a body without a name may follow them. A document is a list of items, one
for each of its parts, so that blank text between definitions is kept in the account of what was
read. -/

/-- **A part of a document.** The last one may be the body that has its name from outside; all
others are definitions and blank text. -/
inductive Item
  /-- blank text among definitions -/
  | blank (loc : Location) (content : String)
  /-- the definition of a template -/
  | definition (name : String) (body : Node)
  /-- the body of the template that is named from outside -/
  | named (name : String) (body : Node)

namespace Item

/-- The template that a part of a document gives. -/
def entry? : Item → Option (String × Node)
  | .blank .. => none
  | .definition name body => some (name, body)
  | .named name body => some (name, body)

end Item

/-- **The templates of a document**, in the order of the source. A name may be there twice: such a
document is one, but it is not read. -/
def entries (items : List Item) : List (String × Node) :=
  items.filterMap Item.entry?

/-- **Segments that are definitions**, with blank text among them. Each definition is a directive
with a name, statements, and an `end`. -/
inductive Definitions (src : String) : List Segment → List Item → Prop
  /-- nothing is defined -/
  | nil : Definitions src [] []
  /-- blank text defines nothing -/
  | blank {segment : Segment} {rest : List Segment} {items : List Item} :
    segment.isBlank = true →
    Definitions src rest items →
    Definitions src (segment :: rest)
      (.blank ⟨src, segment.line⟩ (String.ofList segment.text) :: items)
  /-- a definition, whose name is a literal -/
  | definition {opening closing : Segment} {content : List Char} {loc : Location} {name : String}
      {inside rest : List Segment} {body : List Node} {items : List Item} :
    opening.heading = .define content →
    Expr.read src content opening.line = .ok (.literal loc name) →
    Statements src inside body →
    closing.IsEnd →
    Definitions src rest items →
    Definitions src (opening :: (inside ++ closing :: rest))
      (.definition name (bodyTree src (Body.lineOf closing.line inside) body) :: items)

/-- **The segment ends the definitions**: it is neither blank nor a definition, so what it belongs
to is no part of them. -/
def Segment.EndsDefinitions (segment : Segment) : Prop :=
  segment.isBlank = false ∧ ∀ content, segment.heading ≠ .define content

/-- **Segments that are a document**: definitions, and then, if a name is given, perhaps the body of
the template of that name. -/
inductive Document (src : String) : Option String → List Segment → List Item → Prop
  /-- nothing but definitions -/
  | definitions {name? : Option String} {segments : List Segment} {items : List Item} :
    Definitions src segments items → Document src name? segments items
  /-- definitions and a body -/
  | named {name : String} {segments rest : List Segment} {first : Segment} {items : List Item}
      {body : List Node} :
    Definitions src segments items →
    first.EndsDefinitions →
    Statements src (first :: rest) body →
    Document src (some name) (segments ++ first :: rest)
      (items ++ [.named name (bodyTree src first.line body)])

/-! ### Nothing is lost

A piece is what a single segment says when it is read by itself. Trees are laid out as pieces by
recursion, segments are read as pieces one by one, and the two lists are the same: so the grammar
drops nothing, repeats nothing and changes no order. -/

/-- **What one segment says**, with its place and with the expressions in it read, but with no
regard to what stands around it. -/
inductive Piece
  /-- text that stands as it is -/
  | text (loc : Location) (content : String)
  /-- an expression to interpolate -/
  | interpolation (loc : Location) (expr : Node)
  /-- another template run in place -/
  | inclusion (loc : Location) (name : Node) (data : Option Node)
  /-- a block begins -/
  | header (loc : Location) (kind : BlockKind) (expr : Node)
  /-- a definition begins -/
  | define (name : String)
  /-- the alternative of a block begins -/
  | orElse
  /-- a block or definition ends -/
  | close

/-- **What a segment says**, read by itself. There is nothing if its directive cannot be read. -/
def Segment.piece? (src : String) (segment : Segment) : Option Piece :=
  let loc := Location.mk src segment.line
  match segment.heading with
  | .text content => some (.text loc (String.ofList content))
  | .interpolation content =>
    (Expr.read src content segment.line).toOption.map (.interpolation loc)
  | .inclusion content =>
    (Expr.readInclusion src content segment.line).toOption.map fun (name, data) =>
      .inclusion loc name data
  | .block kind content => (Expr.read src content segment.line).toOption.map (.header loc kind)
  | .define content =>
    match Expr.read src content segment.line with
    | .ok (.literal _ name) => some (.define name)
    | _ => none
  | .orElse content => if Text.isBlank content then some .orElse else none
  | .close content => if Text.isBlank content then some .close else none

mutual

/-- **A statement laid out again**: what the segments said that it was made of, in their order. -/
def Node.pieces : Node → List Piece
  | .text loc content => [.text loc content]
  | .interpolation loc expr => [.interpolation loc expr]
  | .inclusion loc name data => [.inclusion loc name data]
  | .block loc kind expr body none => .header loc kind expr :: (body.pieces ++ [.close])
  | .block loc kind expr body (some orElse) =>
    .header loc kind expr :: (body.pieces ++ .orElse :: (orElse.pieces ++ [.close]))
  | .list _ items => piecesOf items
  | .reference .. | .call .. | .literal .. => []

/-- Statements laid out again, one after the other. -/
def piecesOf : List Node → List Piece
  | [] => []
  | node :: nodes => node.pieces ++ piecesOf nodes

end

/-- **A part of a document laid out again.** -/
def Item.pieces : Item → List Piece
  | .blank loc content => [.text loc content]
  | .definition name body => .define name :: (body.pieces ++ [.close])
  | .named _ body => body.pieces

/-- The tree of a body is laid out as its statements are. -/
@[simp] theorem pieces_bodyTree (src : String) (line : Nat) (nodes : List Node) :
    (bodyTree src line nodes).pieces = piecesOf nodes := by
  rcases bodyTree_cases src line nodes with ⟨only, rfl, honly⟩ | ⟨-, hlist⟩
  · rw [honly, piecesOf, piecesOf, List.append_nil]
  · rw [hlist, Node.pieces]

/-- What ends a body says so. -/
theorem Segment.IsEnd.piece?_eq {segment : Segment} (h : segment.IsEnd) (src : String) :
    segment.piece? src = some .close := by
  obtain ⟨content, hheading, hblank⟩ := h
  simp only [Segment.piece?, hheading, hblank, if_true]

/-- What begins an alternative says so. -/
theorem Segment.IsElse.piece?_eq {segment : Segment} (h : segment.IsElse) (src : String) :
    segment.piece? src = some .orElse := by
  obtain ⟨content, hheading, hblank⟩ := h
  simp only [Segment.piece?, hheading, hblank, if_true]

/-- A header says what block begins. -/
theorem Segment.piece?_of_block {src : String} {segment : Segment} {kind : BlockKind}
    {content : List Char} {expr : Node} (hheading : segment.heading = .block kind content)
    (hread : Expr.read src content segment.line = .ok expr) :
    segment.piece? src = some (.header ⟨src, segment.line⟩ kind expr) := by
  simp only [Segment.piece?, hheading, hread]
  rfl

/-- **A row of statements loses no segment**: laid out again, its trees say what the segments do,
and so many times. -/
theorem Statements.pieces_eq {src : String} {segments : List Segment} {nodes : List Node}
    (h : Statements src segments nodes) :
    segments.map (Segment.piece? src) = (piecesOf nodes).map some := by
  induction h with
  | nil => rfl
  | text hheading _ ih =>
    simp only [List.map_cons, ih, Segment.piece?, hheading, piecesOf, Node.pieces]
    rfl
  | interpolation hheading hread _ ih =>
    simp only [List.map_cons, ih, Segment.piece?, hheading, hread, piecesOf, Node.pieces]
    rfl
  | inclusion hheading hread _ ih =>
    simp only [List.map_cons, ih, Segment.piece?, hheading, hread, piecesOf, Node.pieces]
    rfl
  -- the header and the `end` are the two ends of what a block is laid out as
  | block hheading hread _ hend _ ihbody ih =>
    rw [List.map_cons, List.map_append, List.map_cons, ih, ihbody, hend.piece?_eq,
      Segment.piece?_of_block hheading hread]
    simp [piecesOf, Node.pieces]
  | blockElse hheading hread _ helse _ hend _ ihbody ihelse ih =>
    rw [List.map_cons, List.map_append, List.map_cons, List.map_append, List.map_cons, ih, ihbody,
      ihelse, hend.piece?_eq, helse.piece?_eq, Segment.piece?_of_block hheading hread]
    simp [piecesOf, Node.pieces]

/-- Blank text is text. -/
theorem Segment.piece?_of_isBlank {segment : Segment} (h : segment.isBlank = true) (src : String) :
    segment.piece? src = some (.text ⟨src, segment.line⟩ (String.ofList segment.text)) := by
  obtain ⟨kind, text, line⟩ := segment
  simp only [Segment.isBlank, Bool.and_eq_true, beq_iff_eq] at h
  obtain ⟨rfl, -⟩ := h
  rfl

/-- Definitions lose no segment, blank text among them included. -/
theorem Definitions.pieces_eq {src : String} {segments : List Segment} {items : List Item}
    (h : Definitions src segments items) :
    segments.map (Segment.piece? src) = (items.flatMap Item.pieces).map some := by
  induction h with
  | nil => rfl
  | blank hblank _ ih =>
    rw [List.map_cons, ih, Segment.piece?_of_isBlank hblank]
    rfl
  | definition hheading hread hbody hend _ ih =>
    rw [List.map_cons, List.map_append, List.map_cons, ih, hbody.pieces_eq, hend.piece?_eq]
    simp [Segment.piece?, hheading, hread, Item.pieces]

/-- **A document loses no segment**: its parts, laid out again, say what the segments do. Nothing is
read that is not there, and nothing that is there is passed over. -/
theorem Document.pieces_eq {src : String} {name? : Option String} {segments : List Segment}
    {items : List Item} (h : Document src name? segments items) :
    segments.map (Segment.piece? src) = (items.flatMap Item.pieces).map some := by
  cases h with
  | definitions hdefinitions => exact hdefinitions.pieces_eq
  | named hdefinitions _ hbody =>
    rw [List.map_append, hdefinitions.pieces_eq, hbody.pieces_eq]
    simp [Item.pieces]

end Stencil
