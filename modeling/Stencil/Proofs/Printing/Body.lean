import Stencil.Proofs.Document.Grammar
import Stencil.Proofs.Printing.Directive

/-!
# Bodies as they are written

The trees whose source form has the grammar of documents are the `Shaped` ones: statements stand
where statements belong and proper expressions where expressions belong, and no two texts are
neighbours. Among these, the `isLegible` ones are cut into segments as they were written, and the
segments say the trees again (`Shaped.exists_cuts`). Wherever a shaped tree is not legible, a
segment comes out that says nothing (`Shaped.breaks`).
-/

namespace Stencil

/-! ### Shaped trees

Trees are made by hand too, and then they need not be what any source says: a text next to a text
would be read as one, an expression among statements as text. `Shaped` goes along a row of
statements, with the rows of the bodies inside it, and is the form of what documents mean.
Whether such a row reads back depends on one more thing, which is decided by looking at it
(`areLegible`). -/

/-- **Text that can stand between directives**: some characters, with no directive among them and
one kind of line ending. Text with an opening brace at its end is plain, as no directive begins in
it; what it does to the directive behind it is a matter of `isLegible`. -/
structure IsPlain (cs : List Char) : Prop where
  /-- empty text is not written -/
  nonempty : cs ≠ []
  /-- no directive begins in it -/
  noBraces : NoBraces cs
  /-- no carriage return -/
  noReturn : '\r' ∉ cs

/-- **The tree is the body of a row of statements**: the only one, or the list of all if they are
not one. The reader makes bodies so, and a body that is made otherwise, such as a list of one, is
read back as something else. -/
inductive IsBody : Node → List Node → Prop
  /-- a single statement stands for itself -/
  | only (node : Node) : IsBody node [node]
  /-- any other number makes a list -/
  | list (loc : Location) {items : List Node} : items.length ≠ 1 → IsBody (.list loc items) items

namespace Node

/-- Whether a node is text. -/
def isText : Node → Bool
  | .text .. => true
  | _ => false

end Node

/-- **A row of statements that can be written**: what each carries has its place in the source form,
and what two neighbours are written as does not run together. -/
inductive Shaped : List Node → Prop
  /-- no statement -/
  | nil : Shaped []
  /-- text, which no text follows -/
  | text {loc : Location} {content : String} {nodes : List Node} :
    IsPlain content.toList →
    (∀ next ∈ nodes.head?, next.isText = false) →
    Shaped nodes →
    Shaped (.text loc content :: nodes)
  /-- an interpolated expression -/
  | interpolation {loc : Location} {expr : Node} {nodes : List Node} :
    expr.isProper = true →
    Shaped nodes →
    Shaped (.interpolation loc expr :: nodes)
  /-- another template run in place -/
  | inclusion {loc : Location} {name : Node} {data : Option Node} {nodes : List Node} :
    name.isProper = true →
    (∀ expr ∈ data, expr.isProper = true) →
    Shaped nodes →
    Shaped (.inclusion loc name data :: nodes)
  /-- a block without alternative -/
  | block {loc : Location} {kind : BlockKind} {expr body : Node} {inside nodes : List Node} :
    expr.isProper = true →
    IsBody body inside →
    Shaped inside →
    Shaped nodes →
    Shaped (.block loc kind expr body none :: nodes)
  /-- a block with an alternative -/
  | blockElse {loc : Location} {kind : BlockKind} {expr body orElse : Node}
      {inside outside nodes : List Node} :
    expr.isProper = true →
    IsBody body inside →
    Shaped inside →
    IsBody orElse outside →
    Shaped outside →
    Shaped nodes →
    Shaped (.block loc kind expr body (some orElse) :: nodes)

namespace Node

mutual

/-- **A tree that is written legibly**: no text in it ends with a brace, which would join those of
the directive behind it, and no interpolation leads with a keyword. -/
def isLegible : Node → Bool
  | .text _ content => content.toList.getLast? != some '{'
  | .interpolation _ expr => !expr.leadsWithKeyword
  | .block _ _ _ body none => body.isLegible
  | .block _ _ _ body (some orElse) => body.isLegible && orElse.isLegible
  | .list _ items => areLegible items
  | _ => true

/-- Trees in a row that are written legibly. -/
def areLegible : List Node → Bool
  | [] => true
  | node :: nodes => node.isLegible && areLegible nodes

end

end Node

open Node (areLegible directive)

namespace IsBody

variable {tree : Node} {row : List Node}

/-- A body is written as its statements are. -/
theorem source_eq (h : IsBody tree row) : tree.source = row.flatMap Node.source := by
  cases h with
  | only => simp
  | list loc _ => rw [Node.source, Node.sources_eq_map, List.flatMap_def]

/-- A body is legible if all its statements are. -/
theorem isLegible_eq (h : IsBody tree row) : tree.isLegible = areLegible row := by
  cases h with
  | only => simp [areLegible]
  | list loc _ => rw [Node.isLegible]

/-- **A body that is read again is the same** up to locations, if its statements are: it is a list
again or a single statement again, as their number is the same. -/
theorem unlocated_bodyTree (h : IsBody tree row) {src : String} {line : Nat} {nodes : List Node}
    (hnodes : nodes.map Node.unlocated = row.map Node.unlocated) :
    (bodyTree src line nodes).unlocated = tree.unlocated := by
  have hlength : nodes.length = row.length := by simpa using congrArg List.length hnodes
  cases h with
  | only =>
    obtain ⟨node, rfl⟩ := List.length_eq_one_iff.1 hlength
    exact (List.cons.inj hnodes).1
  | list loc hrow =>
    obtain ⟨only, rfl, -⟩ | ⟨-, hlist⟩ := bodyTree_cases src line nodes
    · exact absurd hlength.symm hrow
    rw [hlist, Node.unlocated, Node.unlocated, Node.relocate, Node.relocate,
      Node.relocateList_eq_map, Node.relocateList_eq_map]
    exact congrArg _ hnodes

end IsBody

/-! ### What stands between the braces

Headers, inclusions and the closing directives all are a word with something neat behind it. For
each word its place in the table of headings is given once, and from that it is neat and announces
its own directive. -/

theorem neat_word {word : String} {announce : List Char → Heading}
    (h : (word, announce) ∈ headings) : Neat word.toList :=
  neat_of_isIdentifier (isIdentifier_of_mem_headings h)

theorem neat_cons_space {cs : List Char} (h : Neat cs) : Neat (' ' :: cs) :=
  (neat_of_all rfl : Neat [' ']).append h

theorem mem_headings_block (kind : BlockKind) :
    (kind.keyword, Heading.block kind) ∈ headings := by
  cases kind with
  | ifBlock => exact .head _
  | range => exact .tail _ (.head _)
  | withBlock => exact .tail _ (.tail _ (.head _))

theorem mem_headings_inclusion : ("template", Heading.inclusion) ∈ headings :=
  .tail _ (.tail _ (.tail _ (.head _)))

theorem mem_headings_define : ("define", Heading.define) ∈ headings :=
  .tail _ (.tail _ (.tail _ (.tail _ (.head _))))

theorem mem_headings_close : ("end", Heading.close) ∈ headings :=
  .tail _ (.tail _ (.tail _ (.tail _ (.tail _ (.head _)))))

theorem mem_headings_orElse : ("else", Heading.orElse) ∈ headings :=
  .tail _ (.tail _ (.tail _ (.tail _ (.tail _ (.tail _ (.head _))))))

/-- A written `end` ends a body. -/
theorem isEnd_directive (line : Nat) :
    (Segment.mk .directive (directive "end".toList) line).IsEnd := by
  refine ⟨[], ?_, rfl⟩
  rw [heading_directive, ← List.append_nil "end".toList, ofInterior_word mem_headings_close rfl]

/-- A written `else` begins an alternative. -/
theorem isElse_directive (line : Nat) :
    (Segment.mk .directive (directive "else".toList) line).IsElse := by
  refine ⟨[], ?_, rfl⟩
  rw [heading_directive, ← List.append_nil "else".toList, ofInterior_word mem_headings_orElse rfl]

/-- What stands between the braces of the header of a block. -/
def headerInterior (kind : BlockKind) (expr : Node) : List Char :=
  kind.keyword.toList ++ ' ' :: expr.source

theorem append_space_append {word spaced : String} (h : spaced.toList = word.toList ++ [' '])
    (cs : List Char) : spaced.toList ++ cs = word.toList ++ ' ' :: cs := by
  rw [h, List.append_assoc, List.singleton_append]

theorem source_inclusion (loc : Location) (name : Node) (data : Option Node) :
    (Node.inclusion loc name data).source
      = directive ("template".toList ++ inclusionContent name data) := by
  have hword : "template ".toList = "template".toList ++ [' '] := by decide
  cases data with
  | none => exact congrArg directive (append_space_append hword _)
  | some data =>
    rw [Node.source, List.append_assoc]
    exact congrArg directive (append_space_append hword _)

theorem neat_headerInterior (kind : BlockKind) {expr : Node} (h : expr.isProper = true) :
    Neat (headerInterior kind expr) :=
  (neat_word (mem_headings_block kind)).append (neat_cons_space (neat_source expr h))

theorem neat_inclusionInterior {name : Node} {data : Option Node} (hname : name.isProper = true)
    (hdata : ∀ expr ∈ data, expr.isProper = true) :
    Neat ("template".toList ++ inclusionContent name data) := by
  refine (neat_word mem_headings_inclusion).append ?_
  cases data with
  | none => exact neat_cons_space (neat_source name hname)
  | some data =>
    exact neat_cons_space
      ((neat_source name hname).append (neat_cons_space (neat_source data (hdata data rfl))))

/-- A written header begins a block. -/
theorem heading_header (kind : BlockKind) (expr : Node) (line : Nat) :
    (Segment.mk .directive (directive (headerInterior kind expr)) line).heading
      = .block kind (' ' :: expr.source) := by
  rw [heading_directive, headerInterior, ofInterior_word (mem_headings_block kind) rfl]

theorem closed_end : Closed "end".toList := (neat_word mem_headings_close).closed

theorem closed_else : Closed "else".toList := (neat_word mem_headings_orElse).closed

/-! ### Rows of statements

The induction is over the shape, and always with one more directive behind the row: the one that
ends the body, or that begins the alternative, or, behind the last statement of a template, the one
that closes its definition. It is what ends a text that is last in the row. Lines are carried along,
as a segment is placed where the text before it ends. -/

variable {src : String} {line : Nat} {inner rest : List Char} {nodes : List Node}

/-- All statements but text begin with a directive. -/
theorem Shaped.exists_directive_source {node : Node} (h : Shaped (node :: nodes))
    (htext : node.isText = false) :
    ∃ inner' more, Closed inner' ∧ node.source = directive inner' ++ more := by
  cases h with
  | text => cases htext
  | interpolation hexpr =>
    exact ⟨_, [], (neat_source _ hexpr).closed, by rw [Node.source, List.append_nil]⟩
  | inclusion hname hdata =>
    have hneat := neat_inclusionInterior hname hdata
    exact ⟨_, [], hneat.closed, by rw [source_inclusion, List.append_nil]⟩
  -- the header is what it begins with; the body and the ends come behind
  | @block loc kind expr body inside _ hexpr =>
    refine ⟨headerInterior kind expr, body.source ++ directive "end".toList,
      (neat_headerInterior kind hexpr).closed, ?_⟩
    rw [Node.source, List.append_assoc, headerInterior]
  | @blockElse loc kind expr body orElse inside outside _ hexpr =>
    refine ⟨headerInterior kind expr, body.source ++ (directive "else".toList ++ (orElse.source ++
      directive "end".toList)), (neat_headerInterior kind hexpr).closed, ?_⟩
    rw [Node.source, headerInterior]
    simp only [List.append_assoc]

/-- Where no text comes first, a directive does. -/
theorem Shaped.exists_directive (h : Shaped nodes)
    (hhead : ∀ next ∈ nodes.head?, next.isText = false) (hinner : Closed inner)
    (rest : List Char) :
    ∃ inner' rest', Closed inner' ∧
      nodes.flatMap Node.source ++ (directive inner ++ rest) = directive inner' ++ rest' := by
  cases nodes with
  | nil => exact ⟨inner, rest, hinner, rfl⟩
  | cons node nodes =>
    obtain ⟨inner', more, hinner', hsource⟩ := h.exists_directive_source (hhead node rfl)
    refine ⟨inner', more ++ (nodes.flatMap Node.source ++ (directive inner ++ rest)), hinner', ?_⟩
    rw [List.flatMap_cons, hsource]
    simp only [List.append_assoc]

/-- **A legible row is cut into segments that say its statements again**, up to locations, before
any directive. Behind the row the cut goes on with that directive, wherever it stands. -/
theorem Shaped.exists_cuts (h : Shaped nodes) (hlegible : areLegible nodes = true)
    (hinner : Closed inner) (line : Nat) :
    ∃ segments nodes' line',
      Cuts src line (nodes.flatMap Node.source) segments line' (directive inner ++ rest) ∧
      Statements src segments nodes' ∧ nodes'.map Node.unlocated = nodes.map Node.unlocated := by
  induction h generalizing inner rest line with
  | nil => exact ⟨[], [], line, .nil, .nil, rfl⟩
  | @text loc content nodes hplain hhead hnodes ih =>
    rw [areLegible, Bool.and_eq_true, Node.isLegible, bne_iff_ne] at hlegible
    obtain ⟨hlast, hlegible⟩ := hlegible
    -- a directive is next, of the row itself or behind it, and ends the text
    obtain ⟨inner', rest', -, hrest⟩ := hnodes.exists_directive hhead hinner rest
    obtain ⟨segments, nodes', line', hcuts, hstatements, hsame⟩ :=
      ih hlegible hinner (line + Text.newlines content.toList)
    have htext : Cuts src line content.toList [⟨.text, content.toList, line⟩]
        (line + Text.newlines content.toList)
        (nodes.flatMap Node.source ++ (directive inner ++ rest)) := by
      rw [hrest]
      exact cuts_text hplain.nonempty hplain.noBraces hlast
    refine ⟨_, _, line', htext.append hcuts, .text rfl hstatements, ?_⟩
    rw [List.map_cons, List.map_cons, hsame, String.ofList_toList]
    rfl
  | @interpolation loc expr nodes hexpr _ ih =>
    rw [areLegible, Bool.and_eq_true, Node.isLegible, Bool.not_eq_true'] at hlegible
    obtain ⟨hlead, hlegible⟩ := hlegible
    obtain ⟨expr', hread, hsame⟩ := Expr.exists_read_source hexpr src line
    obtain ⟨segments, nodes', line', hcuts, hstatements, hnodes⟩ :=
      ih hlegible hinner (line + Text.newlines (directive expr.source))
    have hheading : (Segment.mk .directive (directive expr.source) line).heading
        = .interpolation expr.source := by
      rw [heading_directive, ofInterior_source hexpr hlead]
    refine ⟨_, _, line', (cuts_directive (neat_source expr hexpr).closed).append hcuts,
      .interpolation hheading hread hstatements, ?_⟩
    rw [List.map_cons, List.map_cons, hnodes, Node.unlocated_interpolation, hsame]
    rfl
  | @inclusion loc name data nodes hname hdata _ ih =>
    rw [areLegible, Bool.and_eq_true] at hlegible
    obtain ⟨name', data', hread, hsameName, hsameData⟩ :=
      Expr.exists_readInclusion hname hdata src line
    obtain ⟨segments, nodes', line', hcuts, hstatements, hnodes⟩ := ih hlegible.2 hinner
      (line + Text.newlines (directive ("template".toList ++ inclusionContent name data)))
    have hheading := heading_directive ("template".toList ++ inclusionContent name data) line
    rw [ofInterior_word mem_headings_inclusion (isBoundary_inclusionContent name data)] at hheading
    refine ⟨_, _, line', ?_, .inclusion hheading hread hstatements, ?_⟩
    · rw [List.flatMap_cons, source_inclusion]
      exact (cuts_directive (neat_inclusionInterior hname hdata).closed).append hcuts
    · rw [List.map_cons, List.map_cons, hnodes, Node.unlocated_inclusion, Node.unlocated_inclusion,
        hsameName, hsameData]
  -- header, body, end and what is behind: each is cut where the one before it ends
  | @block loc kind expr body inside nodes hexpr hbody _ _ ihbody ih =>
    rw [areLegible, Bool.and_eq_true, Node.isLegible, hbody.isLegible_eq] at hlegible
    obtain ⟨expr', hread, hsame⟩ := Expr.exists_read_space_source hexpr src line
    obtain ⟨segments₁, nodes₁, line₁, hcuts₁, hstatements₁, hsame₁⟩ :=
      ihbody hlegible.1 closed_end (line + Text.newlines (directive (headerInterior kind expr)))
    obtain ⟨segments₂, nodes₂, line₂, hcuts₂, hstatements₂, hsame₂⟩ :=
      ih hlegible.2 hinner (line₁ + Text.newlines (directive "end".toList))
    refine ⟨_, _, line₂, ?_, .block (heading_header kind expr line) hread hstatements₁
      (isEnd_directive line₁) hstatements₂, ?_⟩
    · rw [List.flatMap_cons, Node.source, hbody.source_eq, List.append_assoc, List.append_assoc]
      refine (cuts_directive (neat_headerInterior kind hexpr).closed).append (.append ?_
        ((cuts_directive closed_end).append hcuts₂))
      rw [List.append_assoc]
      exact hcuts₁
    · rw [List.map_cons, List.map_cons, hsame₂, Node.unlocated_block, Node.unlocated_block, hsame,
        hbody.unlocated_bodyTree hsame₁, Option.map_none]
  -- the body is before the word of the alternative, and that before the end
  | @blockElse loc kind expr body orElse inside outside nodes hexpr hbody _ helse _ _ ihbody ihelse
      ih =>
    rw [areLegible, Bool.and_eq_true, Node.isLegible, Bool.and_eq_true, hbody.isLegible_eq,
      helse.isLegible_eq] at hlegible
    obtain ⟨⟨hinside, houtside⟩, hrest⟩ := hlegible
    obtain ⟨expr', hread, hsame⟩ := Expr.exists_read_space_source hexpr src line
    obtain ⟨segments₁, nodes₁, line₁, hcuts₁, hstatements₁, hsame₁⟩ :=
      ihbody hinside closed_else (line + Text.newlines (directive (headerInterior kind expr)))
    obtain ⟨segments₂, nodes₂, line₂, hcuts₂, hstatements₂, hsame₂⟩ :=
      ihelse houtside closed_end (line₁ + Text.newlines (directive "else".toList))
    obtain ⟨segments₃, nodes₃, line₃, hcuts₃, hstatements₃, hsame₃⟩ :=
      ih hrest hinner (line₂ + Text.newlines (directive "end".toList))
    refine ⟨_, _, line₃, ?_, .blockElse (heading_header kind expr line) hread hstatements₁
      (isElse_directive line₁) hstatements₂ (isEnd_directive line₂) hstatements₃, ?_⟩
    · rw [List.flatMap_cons, Node.source, hbody.source_eq, helse.source_eq]
      simp only [List.append_assoc]
      refine (cuts_directive (neat_headerInterior kind hexpr).closed).append (.append ?_
        ((cuts_directive closed_else).append (.append ?_
          ((cuts_directive closed_end).append hcuts₃))))
      · simp only [List.append_assoc]
        exact hcuts₁
      · simp only [List.append_assoc]
        exact hcuts₂
    · rw [List.map_cons, List.map_cons, hsame₃, Node.unlocated_block, Node.unlocated_block, hsame,
        hbody.unlocated_bodyTree hsame₁, Option.map_some, helse.unlocated_bodyTree hsame₂]
      rfl

/-! ### Where a row is not legible

The same induction, up to the first statement that is not legible. Everything before it is cut as it
was written; the statement itself makes a directive that says nothing, and no reader comes past such
a directive. What is behind it does not matter, so the lemmas leave the rest of the source open. -/

/-- **A source breaks** if a directive comes out of it that says nothing. The cut goes on behind it,
so what follows may be anything, an unclosed directive too. -/
def Breaks (src : String) (line : Nat) (cs : List Char) : Prop :=
  ∃ before lost line' after, lost.isBlank = false ∧ lost.piece? src = none ∧
    (Splitter.mk src cs line).segments
      = (Splitter.mk src after line').segments.map (before ++ lost :: ·)

/-- A source breaks where a piece of it does. -/
theorem Breaks.of_cuts {line' : Nat} {cs : List Char} {before : List Segment} {lost : Segment}
    (h : Cuts src line cs (before ++ [lost]) line' rest) (hblank : lost.isBlank = false)
    (hlost : lost.piece? src = none) : Breaks src line (cs ++ rest) := by
  refine ⟨before, lost, line', rest, hblank, hlost, ?_⟩
  rw [show (Splitter.mk src (cs ++ rest) line).segments = _ from h]
  simp only [List.append_assoc, List.singleton_append]

/-- A source breaks where what is left of it does. -/
theorem Breaks.append {line' : Nat} {cs : List Char} {segments : List Segment}
    (h : Cuts src line cs segments line' rest) (hrest : Breaks src line' rest) :
    Breaks src line (cs ++ rest) := by
  obtain ⟨before, lost, line'', after, hblank, hlost, hsegments⟩ := hrest
  refine ⟨segments ++ before, lost, line'', after, hblank, hlost, ?_⟩
  rw [show (Splitter.mk src (cs ++ rest) line).segments = _ from h, hsegments]
  cases (Splitter.mk src after line'').segments with
  | error e => rfl
  | ok others => exact congrArg Except.ok (List.append_assoc ..).symm

/-- **A row that is not legible breaks**, before any directive: together with `Shaped.exists_cuts`
this says that legibility is exactly what it takes. -/
theorem Shaped.breaks (h : Shaped nodes) (hlegible : areLegible nodes = false)
    (hinner : Closed inner) (line : Nat) :
    Breaks src line (nodes.flatMap Node.source ++ (directive inner ++ rest)) := by
  induction h generalizing inner rest line with
  | nil => cases hlegible
  | @text loc content nodes hplain hhead hnodes ih =>
    obtain ⟨inner', rest', hinner', hrest⟩ := hnodes.exists_directive hhead hinner rest
    rw [List.flatMap_cons, Node.source, List.append_assoc]
    by_cases hlast : content.toList.getLast? = some '{'
    -- the brace goes into the next directive, whatever that is
    · obtain ⟨cs, hcs⟩ := List.getLast?_eq_some_iff.1 hlast
      have hbraces : NoBraces (cs ++ ['{']) := hcs ▸ hplain.noBraces
      obtain ⟨before, line₁, line₂, hcuts⟩ : ∃ before line₁ line₂,
          Cuts src line (cs ++ ['{'] ++ directive inner')
            (before ++ [⟨.directive, directive ('{' :: inner'), line₁⟩]) line₂ rest' :=
        exists_cuts_brace hbraces hinner'
      rw [hrest, hcs, ← List.append_assoc]
      exact .of_cuts hcuts rfl (piece?_eq_none_of_brace inner' src line₁)
    · have hnodes : areLegible nodes = false := by
        simpa [areLegible, Node.isLegible, hlast] using hlegible
      have htext : Cuts src line content.toList [⟨.text, content.toList, line⟩]
          (line + Text.newlines content.toList) (directive inner' ++ rest') :=
        cuts_text hplain.nonempty hplain.noBraces hlast
      rw [← hrest] at htext
      exact .append htext (ih hnodes hinner _)
  | @interpolation loc expr nodes hexpr _ ih =>
    rw [List.flatMap_cons, Node.source, List.append_assoc]
    have hcuts : Cuts src line (directive expr.source)
        ([] ++ [⟨.directive, directive expr.source, line⟩])
        (line + Text.newlines (directive expr.source))
        (nodes.flatMap Node.source ++ (directive inner ++ rest)) :=
      cuts_directive (neat_source expr hexpr).closed
    cases hlead : expr.leadsWithKeyword with
    -- the directive is read as that of the keyword
    | true => exact .of_cuts hcuts rfl (piece?_eq_none_of_keyword hexpr hlead src line)
    | false =>
      have hnodes : areLegible nodes = false := by
        simpa [areLegible, Node.isLegible, hlead] using hlegible
      exact .append hcuts (ih hnodes hinner _)
  -- an inclusion is always legible, so the break is behind it
  | @inclusion loc name data nodes hname hdata _ ih =>
    have hnodes : areLegible nodes = false := by
      simpa [areLegible, Node.isLegible] using hlegible
    rw [List.flatMap_cons, source_inclusion, List.append_assoc]
    exact .append (cuts_directive (neat_inclusionInterior hname hdata).closed) (ih hnodes hinner _)
  | @block loc kind expr body inside nodes hexpr hbody hinside _ ihbody ih =>
    rw [List.flatMap_cons, Node.source, hbody.source_eq]
    simp only [List.append_assoc]
    refine .append (cuts_directive (neat_headerInterior kind hexpr).closed) ?_
    cases hlegibleInside : areLegible inside with
    | false => exact ihbody hlegibleInside closed_end _
    | true =>
      -- the body is cut as it was written, so the break is behind the block
      have hnodes : areLegible nodes = false := by
        simpa [areLegible, Node.isLegible, hbody.isLegible_eq, hlegibleInside] using hlegible
      obtain ⟨segments, nodes', line', hcuts, -⟩ :=
        hinside.exists_cuts hlegibleInside closed_end _
      exact .append hcuts (.append (cuts_directive closed_end) (ih hnodes hinner _))
  | @blockElse loc kind expr body orElse inside outside nodes hexpr hbody hinside helse houtside _
      ihbody ihelse ih =>
    rw [List.flatMap_cons, Node.source, hbody.source_eq, helse.source_eq]
    simp only [List.append_assoc]
    refine .append (cuts_directive (neat_headerInterior kind hexpr).closed) ?_
    cases hlegibleInside : areLegible inside with
    -- the body, the alternative or what is behind the block: the first that is not legible
    | false => exact ihbody hlegibleInside closed_else _
    | true =>
      obtain ⟨segments, nodes', line', hcuts, -⟩ :=
        hinside.exists_cuts hlegibleInside closed_else _
      refine .append hcuts (.append (cuts_directive closed_else) ?_)
      cases hlegibleOutside : areLegible outside with
      | false => exact ihelse hlegibleOutside closed_end _
      | true =>
        have hnodes : areLegible nodes = false := by
          simpa [areLegible, Node.isLegible, hbody.isLegible_eq, helse.isLegible_eq, hlegibleInside,
            hlegibleOutside] using hlegible
        obtain ⟨segments, nodes', line', hcuts, -⟩ :=
          houtside.exists_cuts hlegibleOutside closed_end _
        exact .append hcuts (.append (cuts_directive closed_end) (ih hnodes hinner _))

end Stencil
