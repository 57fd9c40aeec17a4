import Stencil.Proofs.Document.Lines
import Stencil.Proofs.Printing.RoundTrip

/-!
# The shape of what is read

What everything that works on a set relies on. Nodes stand where nodes of their sort belong, and on
lines of the source; text is plain, and names are identifiers (`WellFormed`). The body that is named
from outside is trimmed: it has no blank text at its ends (`IsTrimmed`). Each comes from a stage of
its own, the cutting of the source (`Dissects.wellCut`), the reading of its directives
(`Expr.isProper_of_read`) and the counting of lines (`StatementsAt.within`), and they meet in
`TemplateSet.trees_are_well_formed`.
-/

namespace Stencil

open Text (newlines)

/-! ### Well-formed trees

What is said of a tree is said of all its nodes, each seen with its children only. So it is proved
along the grammar with one step for each kind of statement, and a user of a tree may take any node
of it. -/

namespace Node

/-- Whether a node is a single statement. -/
def isStatement : Node → Bool
  | .text .. | .interpolation .. | .inclusion .. | .block .. => true
  | _ => false

/-- Whether a node is what a body can be: a single statement, or a list. -/
def isStatements : Node → Bool
  | .list .. => true
  | node => node.isStatement

/-- **A node as it comes out of a source**: plain text, identifiers for names, and children of the
sorts that belong there. A list has not one item, none that is a list, and no two neighbours that
are text. -/
def IsFormed : Node → Prop
  | .text _ content => IsPlain content.toList
  | .interpolation _ expr => expr.isExpression = true
  | .reference _ path => ∀ property ∈ path, isIdentifier property.toList = true
  | .call _ name args => isIdentifier name.toList = true ∧ ∀ arg ∈ args, arg.isExpression = true
  | .literal .. => True
  | .inclusion _ name data => name.isExpression = true ∧ ∀ expr ∈ data, expr.isExpression = true
  | .block _ _ expr body orElse =>
    expr.isExpression = true ∧ ∀ part ∈ body :: orElse.toList, part.isStatements = true
  | .list _ items =>
    items.length ≠ 1 ∧ (∀ item ∈ items, item.isStatement = true) ∧
      ∀ item next, [item, next] <:+: items → item.isText = true → next.isText = false

/-- **A tree as it comes out of a source** that ends on a line. The three parts speak of its root,
of each of its nodes, and of where they are. -/
structure WellFormed (src : String) (last : Nat) (tree : Node) : Prop where
  /-- the root is a body -/
  root : tree.isStatements = true
  /-- all nodes are as they come out of a source -/
  formed : ∀ node ∈ tree.subtrees, node.IsFormed
  /-- all nodes are on its lines -/
  within : tree.Within src 1 last

/-- **No text in a tree ends with a brace**, so that what is written behind the text cannot run into
it. -/
def EndsClosed (tree : Node) : Prop :=
  ∀ content ∈ tree.contents, content.toList.getLast? ≠ some '{'

/-- Whether a node is blank text. -/
def isBlankText : Node → Bool
  | .text _ content => Text.isBlank content.toList
  | _ => false

/-- The statements that a body consists of. -/
def statements : Node → List Node
  | .list _ items => items
  | node => [node]

/-- **The body that is named from outside**: at least one statement, no blank text at its ends, and
only text that is the very last node of all may end with a brace. -/
structure IsTrimmed (body : Node) : Prop where
  /-- there is a statement -/
  ne_nil : body.statements ≠ []
  /-- blank text is not first -/
  head : ∀ first ∈ body.statements.head?, first.isBlankText = false
  /-- blank text is not last -/
  last : ∀ last ∈ body.statements.getLast?, last.isBlankText = false
  /-- text ends with a brace only where nothing follows, and in no block -/
  endsClosed : ∀ earlier node later, body.statements = earlier ++ node :: later →
    (node.isText = true → later ≠ []) → node.EndsClosed

end Node

/-! ### Expressions -/

namespace Node

variable {expr node : Node}

/-- What is under a proper expression is proper. -/
theorem isProper_of_mem_subtrees (h : expr.isProper = true) (hnode : node ∈ expr.subtrees) :
    node.isProper = true := by
  induction expr using children_induction with
  | h expr ih =>
    rcases mem_subtrees_iff.1 hnode with rfl | ⟨child, hchild, hnode⟩
    · exact h
    · refine ih child hchild ?_ hnode
      cases expr with
      | call loc name args =>
        rw [isProper, Bool.and_eq_true] at h
        exact areProper_iff.1 h.2 child hchild
      | reference | literal => cases hchild
      | text | interpolation | inclusion | block | list => cases h

/-- Proper expressions are as they come out of a source. -/
theorem isFormed_of_isProper (h : expr.isProper = true) : expr.IsFormed := by
  cases expr with
  | reference loc path => exact List.all_eq_true.1 h
  | literal => trivial
  | call loc name args =>
    rw [isProper, Bool.and_eq_true] at h
    exact ⟨h.1, fun arg harg => isExpression_of_isProper (areProper_iff.1 h.2 arg harg)⟩
  | text | interpolation | inclusion | block | list => cases h

/-- **All of a proper expression** is as it comes out of a source. -/
theorem isFormed_of_mem_subtrees (h : expr.isProper = true) :
    ∀ node ∈ expr.subtrees, node.IsFormed :=
  fun _ hnode => isFormed_of_isProper (isProper_of_mem_subtrees h hnode)

/-- There is no text in a proper expression. -/
theorem contents_of_isProper (h : expr.isProper = true) : expr.contents = [] := by
  refine List.filterMap_eq_nil_iff.2 fun node hnode => ?_
  have hproper := isProper_of_mem_subtrees h hnode
  cases node with
  | text => cases hproper
  | _ => rfl

end Node

/-! ### Rows of statements -/

section Rows

variable {body : Node} {nodes : List Node}

theorem Shaped.isStatement (h : Shaped nodes) : ∀ node ∈ nodes, node.isStatement = true := by
  induction h with
  | nil => exact List.forall_mem_nil _
  | text _ _ _ ih | interpolation _ _ ih | inclusion _ _ _ ih | block _ _ _ _ _ ih
  | blockElse _ _ _ _ _ _ _ _ ih => exact List.forall_mem_cons.2 ⟨rfl, ih⟩

/-- No text stands beside text. -/
theorem Shaped.apart (h : Shaped nodes) {item next : Node} (hpair : [item, next] <:+: nodes)
    (htext : item.isText = true) : next.isText = false := by
  induction h with
  | nil => cases List.eq_nil_of_infix_nil hpair
  | text _ hhead _ ih =>
    rcases List.infix_cons_iff.1 hpair with hfirst | hrest
    · obtain ⟨after, rfl⟩ := (List.cons_prefix_cons.1 hfirst).2
      exact hhead next rfl
    · exact ih hrest
  | interpolation _ _ ih | inclusion _ _ _ ih | block _ _ _ _ _ ih
  | blockElse _ _ _ _ _ _ _ _ ih =>
    rcases List.infix_cons_iff.1 hpair with hfirst | hrest
    · obtain ⟨rfl, -⟩ := List.cons_prefix_cons.1 hfirst
      cases htext
    · exact ih hrest

/-- The tree of a shaped row is a body. -/
theorem IsBody.isStatements (h : IsBody body nodes) (hnodes : Shaped nodes) :
    body.isStatements = true := by
  cases h with
  | list => rfl
  | only =>
    have hbody := hnodes.isStatement body List.mem_cons_self
    cases body with
    | reference | call | literal | list => cases hbody
    | text | interpolation | inclusion | block => rfl

/-- The statements of a shaped row are those of its tree. -/
theorem IsBody.statements_eq (h : IsBody body nodes) (hnodes : Shaped nodes) :
    body.statements = nodes := by
  cases h with
  | list => rfl
  | only =>
    have hbody := hnodes.isStatement body List.mem_cons_self
    cases body with
    | list => cases hbody
    | _ => rfl

/-- The tree of a shaped row is as it comes out of a source, if its statements are. -/
theorem IsBody.isFormed (h : IsBody body nodes) (hnodes : Shaped nodes)
    (hformed : ∀ node ∈ nodes, ∀ sub ∈ node.subtrees, sub.IsFormed) :
    ∀ sub ∈ body.subtrees, sub.IsFormed := by
  cases h with
  | only => exact hformed body List.mem_cons_self
  | list _ hlength =>
    exact Node.forall_mem_subtrees_iff.2
      ⟨⟨hlength, hnodes.isStatement, fun _ _ => hnodes.apart⟩, hformed⟩

/-- **All of a shaped row** is as it comes out of a source. -/
theorem Shaped.isFormed (h : Shaped nodes) :
    ∀ node ∈ nodes, ∀ sub ∈ node.subtrees, sub.IsFormed := by
  induction h with
  | nil => exact List.forall_mem_nil _
  | text hplain _ _ ih =>
    exact List.forall_mem_cons.2 ⟨Node.forall_mem_subtrees_iff.2 ⟨hplain, nofun⟩, ih⟩
  | interpolation hexpr _ ih =>
    refine List.forall_mem_cons.2 ⟨Node.forall_mem_subtrees_iff.2 ⟨?_, ?_⟩, ih⟩
    · exact Node.isExpression_of_isProper hexpr
    · exact List.forall_mem_singleton.2 (Node.isFormed_of_mem_subtrees hexpr)
  | inclusion hname hdata _ ih =>
    refine List.forall_mem_cons.2 ⟨Node.forall_mem_subtrees_iff.2 ⟨⟨?_, ?_⟩, ?_⟩, ih⟩
    · exact Node.isExpression_of_isProper hname
    · exact fun expr hexpr => Node.isExpression_of_isProper (hdata expr hexpr)
    · refine List.forall_mem_cons.2 ⟨Node.isFormed_of_mem_subtrees hname, fun expr hexpr => ?_⟩
      exact Node.isFormed_of_mem_subtrees (hdata expr (Option.mem_toList.1 hexpr))
  -- the body is one statement or a list of them, whose items are as they should be by induction
  | block hexpr hbody hinside _ ihinside ih =>
    refine List.forall_mem_cons.2 ⟨Node.forall_mem_subtrees_iff.2 ⟨⟨?_, ?_⟩, ?_⟩, ih⟩
    · exact Node.isExpression_of_isProper hexpr
    · exact List.forall_mem_singleton.2 (hbody.isStatements hinside)
    · exact List.forall_mem_cons.2 ⟨Node.isFormed_of_mem_subtrees hexpr,
        List.forall_mem_singleton.2 (hbody.isFormed hinside ihinside)⟩
  | blockElse hexpr hbody hinside horElse houtside _ ihinside ihoutside ih =>
    refine List.forall_mem_cons.2 ⟨Node.forall_mem_subtrees_iff.2 ⟨⟨?_, ?_⟩, ?_⟩, ih⟩
    · exact Node.isExpression_of_isProper hexpr
    · exact List.forall_mem_cons.2 ⟨hbody.isStatements hinside,
        List.forall_mem_singleton.2 (horElse.isStatements houtside)⟩
    · exact List.forall_mem_cons.2 ⟨Node.isFormed_of_mem_subtrees hexpr,
        List.forall_mem_cons.2 ⟨hbody.isFormed hinside ihinside,
          List.forall_mem_singleton.2 (horElse.isFormed houtside ihoutside)⟩⟩

end Rows

/-! ### Text that ends with a brace

A text that ends with a brace can come out of a source only where nothing follows it, since the
brace would have joined those of the next directive. The induction carries the segments that stand
behind the statements; a block has its `end` behind its body, so no text in it ends with a brace. -/

/-- **No text ends with a brace where a segment follows.** A brace before a directive would have
been taken for one of its own. -/
def BracesApart (segments : List Segment) : Prop :=
  ∀ segment next, [segment, next] <:+: segments → segment.kind = .text →
    segment.text.getLast? ≠ some '{'

theorem BracesApart.of_isInfix {segments more : List Segment} (h : BracesApart segments)
    (hmore : more <:+: segments) : BracesApart more :=
  fun segment next hpair => h segment next (hpair.trans hmore)

/-- Where a source is cut, no brace is torn from those of a directive. -/
theorem Dissects.bracesApart {line : Nat} {code rest : List Char} {segments : List Segment}
    (h : Dissects line code segments rest) : BracesApart segments := by
  rintro segment next ⟨before, after, rfl⟩ hkind
  refine h.noJoin before segment (next :: after) (by simp) hkind ?_
  simp [h.ne_nil next (by simp)]

namespace Node

variable {tree : Node} {nodes : List Node}

/-- No text ends with a brace where none does in the children. -/
theorem EndsClosed.of_children (htext : tree.isText = false)
    (h : ∀ child ∈ tree.children, child.EndsClosed) : tree.EndsClosed := by
  intro content hcontent
  rw [contents_eq, List.mem_append, List.mem_flatMap] at hcontent
  rcases hcontent with hroot | ⟨child, hchild, hcontent⟩
  · cases tree with
    | text => cases htext
    | _ => cases hroot
  · exact h child hchild content hcontent

theorem endsClosed_of_isProper (h : tree.isProper = true) : tree.EndsClosed := by
  rw [EndsClosed, contents_of_isProper h]
  exact nofun

/-- No text ends with a brace in the tree of a row in which none does. -/
theorem endsClosed_bodyTree {src : String} {line : Nat} (h : ∀ node ∈ nodes, node.EndsClosed) :
    (bodyTree src line nodes).EndsClosed := by
  rcases bodyTree_cases src line nodes with ⟨only, rfl, -⟩ | ⟨-, hlist⟩
  · exact List.forall_mem_singleton.1 h
  · rw [hlist]
    exact .of_children rfl h

end Node

section Ends

variable {src : String} {segments after : List Segment} {nodes : List Node}

/-- **Statements with segments behind them in which no text ends with a brace** where anything
follows: the very last statement may be such text, if there are no segments behind. -/
def ClosedBefore (nodes : List Node) (after : List Segment) : Prop :=
  ∀ earlier node later, nodes = earlier ++ node :: later →
    (node.isText = true → later ≠ [] ∨ after ≠ []) → node.EndsClosed

theorem closedBefore_nil (after : List Segment) : ClosedBefore [] after := by
  intro earlier node later heq
  simp at heq

theorem ClosedBefore.cons {node : Node}
    (hnode : (node.isText = true → nodes ≠ [] ∨ after ≠ []) → node.EndsClosed)
    (hnodes : ClosedBefore nodes after) : ClosedBefore (node :: nodes) after := by
  rintro (- | ⟨first, earlier⟩) other later heq
  · obtain ⟨rfl, rfl⟩ := List.cons.inj heq
    exact hnode
  · exact hnodes earlier other later (List.cons.inj heq).2

/-- No text ends with a brace in a body that has its end. -/
theorem ClosedBefore.bodyTree {line : Nat} (h : ClosedBefore nodes after) (hafter : after ≠ []) :
    (bodyTree src line nodes).EndsClosed := by
  refine Node.endsClosed_bodyTree ?_
  intro node hnode
  obtain ⟨earlier, later, heq⟩ := List.append_of_mem hnode
  apply h earlier node later heq
  intro _
  exact .inr hafter

/-- **No text of statements ends with a brace**, but the very last one, and that only at the end of
the source. -/
theorem Statements.closedBefore (h : Statements src segments nodes)
    (hapart : BracesApart (segments ++ after)) : ClosedBefore nodes after := by
  -- with any segments behind, since a body has others behind it than the row that it is in
  induction h generalizing after with
  | nil => exact closedBefore_nil after
  | @text segment content rest nodes hheading hrest ih =>
    refine .cons ?_ (ih (hapart.of_isInfix (List.suffix_cons segment _).isInfix))
    intro hbehind
    obtain ⟨hkind, rfl⟩ := Segment.eq_text_of_heading hheading
    -- something stands behind the text: a statement, or what is behind all of them
    have hmore : rest ++ after ≠ [] := by
      intro hnil
      obtain ⟨rfl, rfl⟩ := List.append_eq_nil_iff.1 hnil
      cases hrest
      simp [Node.isText] at hbehind
    obtain ⟨next, more, hnext⟩ := List.exists_cons_of_ne_nil hmore
    intro other hother
    obtain rfl : other = String.ofList segment.text := by
      simpa [Node.contents, Node.subtrees, Node.content?] using hother
    rw [String.toList_ofList]
    exact hapart segment next ⟨[], more, by simp [hnext]⟩ hkind
  | @interpolation segment content expr rest nodes _ hread _ ih =>
    refine .cons (fun _ => .of_children rfl ?_)
      (ih (hapart.of_isInfix (List.suffix_cons segment _).isInfix))
    exact List.forall_mem_singleton.2 (Node.endsClosed_of_isProper (Expr.isProper_of_read hread))
  | @inclusion segment content name data rest nodes _ hread _ ih =>
    obtain ⟨hname, hdata⟩ := Expr.isProper_of_readInclusion hread
    refine .cons (fun _ => .of_children rfl ?_)
      (ih (hapart.of_isInfix (List.suffix_cons segment _).isInfix))
    refine List.forall_mem_cons.2 ⟨Node.endsClosed_of_isProper hname, fun expr hexpr => ?_⟩
    exact Node.endsClosed_of_isProper (hdata expr (Option.mem_toList.1 hexpr))
  -- behind the body comes the `end`, behind the block whatever follows it
  | @block opening closing kind content expr inside rest inner nodes _ hread _ _ _ ihbody ih =>
    have hinside : BracesApart (inside ++ closing :: (rest ++ after)) :=
      hapart.of_isInfix ⟨[opening], [], by simp⟩
    have hrest : BracesApart (rest ++ after) :=
      hapart.of_isInfix ⟨opening :: (inside ++ [closing]), [], by simp⟩
    refine .cons (fun _ => .of_children rfl ?_) (ih hrest)
    exact List.forall_mem_cons.2 ⟨Node.endsClosed_of_isProper (Expr.isProper_of_read hread),
      List.forall_mem_singleton.2 ((ihbody hinside).bodyTree (List.cons_ne_nil _ _))⟩
  | @blockElse opening middle closing kind content expr inside outside rest inner orElse nodes _
      hread _ _ _ _ _ ihbody ihelse ih =>
    have hinside : BracesApart (inside ++ middle :: (outside ++ closing :: (rest ++ after))) :=
      hapart.of_isInfix ⟨[opening], [], by simp⟩
    have houtside : BracesApart (outside ++ closing :: (rest ++ after)) :=
      hapart.of_isInfix ⟨opening :: (inside ++ [middle]), [], by simp⟩
    have hrest : BracesApart (rest ++ after) :=
      hapart.of_isInfix ⟨opening :: (inside ++ middle :: (outside ++ [closing])), [], by simp⟩
    refine .cons (fun _ => .of_children rfl ?_) (ih hrest)
    exact List.forall_mem_cons.2 ⟨Node.endsClosed_of_isProper (Expr.isProper_of_read hread),
      List.forall_mem_cons.2 ⟨(ihbody hinside).bodyTree (List.cons_ne_nil _ _),
        List.forall_mem_singleton.2 ((ihelse houtside).bodyTree (List.cons_ne_nil _ _))⟩⟩

/-! ### Blank text at the ends

Blank text in front is taken as part of the definitions and blank text at the end is dropped. That
the last statement is not blank is read off the pieces, as the last piece is that of the last
segment. -/

/-- Only text says text. -/
theorem Segment.of_piece?_eq_text {segment : Segment} {loc : Location} {content : String}
    (h : segment.piece? src = some (.text loc content)) :
    segment.kind = .text ∧ segment.text = content.toList := by
  unfold Segment.piece? at h
  split at h
  · next hheading =>
    cases h
    obtain ⟨hkind, htext⟩ := Segment.eq_text_of_heading hheading
    exact ⟨hkind, by rw [htext, String.toList_ofList]⟩
  iterate 3
    · simp at h
  iterate 3
    · split at h <;> cases h

theorem piecesOf_append (nodes others : List Node) :
    piecesOf (nodes ++ others) = piecesOf nodes ++ piecesOf others := by
  induction nodes with
  | nil => rfl
  | cons node nodes ih => rw [List.cons_append, piecesOf, piecesOf, ih, List.append_assoc]

/-- Text that is the last statement is the last segment. -/
theorem Statements.exists_last_text {loc : Location} {content : String}
    (h : Statements src segments (nodes ++ [.text loc content])) :
    ∃ last ∈ segments.getLast?, last.kind = .text ∧ last.text = content.toList := by
  have hpieces := congrArg List.getLast? h.pieces_eq
  simp only [piecesOf_append, piecesOf, Node.pieces, List.append_nil, List.getLast?_map,
    List.getLast?_concat, Option.map_some] at hpieces
  obtain ⟨last, hlast, hpiece⟩ := Option.map_eq_some_iff.1 hpieces
  exact ⟨last, hlast, Segment.of_piece?_eq_text hpiece⟩

/-- **The body of segments without blank text at their ends is trimmed**, if it is behind all of
them. -/
theorem Statements.isTrimmed {first : Segment} {rest : List Segment} {line : Nat}
    (h : Statements src (first :: rest) nodes) (hcut : WellCut (first :: rest))
    (hapart : BracesApart (first :: rest)) (hfirst : first.isBlank = false)
    (hlast : ∀ last ∈ (first :: rest).getLast?, last.isBlank = false) :
    (bodyTree src line nodes).IsTrimmed := by
  have hstatements : (bodyTree src line nodes).statements = nodes :=
    (isBody_bodyTree src line nodes).statements_eq (h.shaped hcut)
  constructor <;> rw [hstatements]
  · rintro rfl
    cases h
  -- the first statement is made of the first segment
  · intro node hnode
    cases h with
    | text hheading =>
      cases hnode
      obtain ⟨hkind, rfl⟩ := Segment.eq_text_of_heading hheading
      simpa [Segment.isBlank, hkind, Node.isBlankText] using hfirst
    | interpolation | inclusion | block | blockElse =>
      cases hnode
      rfl
  · intro node hnode
    cases node with
    | text loc content =>
      obtain ⟨earlier, rfl⟩ := List.getLast?_eq_some_iff.1 hnode
      obtain ⟨last, hmem, hkind, htext⟩ := h.exists_last_text
      simpa [Segment.isBlank, hkind, htext, Node.isBlankText] using hlast last hmem
    | _ => rfl
  · have hwhole : BracesApart (first :: rest ++ []) := by rwa [List.append_nil]
    intro earlier node later heq htext
    apply h.closedBefore hwhole earlier node later heq
    intro hnode
    exact .inl (htext hnode)

/-! ### Whole sources -/

/-- **No text in a definition ends with a brace**: there is an `end` behind it. -/
theorem Definitions.endsClosed {items : List Item} (h : Definitions src segments items)
    (hapart : BracesApart segments) {name : String} {tree : Node}
    (hmem : .definition name tree ∈ items) : tree.EndsClosed := by
  induction h with
  | nil => cases hmem
  | @blank segment rest items _ _ ih =>
    exact ih (hapart.of_isInfix (List.suffix_cons segment rest).isInfix) (by simpa using hmem)
  | @definition opening closing content loc other inside rest body items _ _ hbody _ _ ih =>
    rcases List.mem_cons.1 hmem with heq | hmem
    · obtain ⟨rfl, rfl⟩ := Item.definition.inj heq
      have hinside : BracesApart (inside ++ closing :: rest) :=
        hapart.of_isInfix (List.suffix_cons opening _).isInfix
      exact (hbody.closedBefore hinside).bodyTree (List.cons_ne_nil closing rest)
    · exact ih (hapart.of_isInfix ⟨opening :: (inside ++ [closing]), [], by simp⟩) hmem

/-- Among definitions there is no body that is named from outside. -/
theorem Definitions.named_notMem {items : List Item} (h : Definitions src segments items)
    (name : String) (tree : Node) : .named name tree ∉ items := by
  induction h with
  | nil => exact List.not_mem_nil
  | blank _ _ ih | definition _ _ _ _ _ ih => simpa using ih

/-- **No text in a definition of a document ends with a brace.** -/
theorem Document.endsClosed {name? : Option String} {items : List Item}
    (h : Document src name? segments items) (hapart : BracesApart segments) {name : String}
    {tree : Node} (hmem : .definition name tree ∈ items) : tree.EndsClosed := by
  cases h with
  | definitions hdefinitions => exact hdefinitions.endsClosed hapart hmem
  | @named given earlier rest first items body hdefinitions _ _ =>
    have hdefinition : .definition name tree ∈ items := by simpa using hmem
    exact hdefinitions.endsClosed (hapart.of_isInfix (List.prefix_append _ _).isInfix) hdefinition

/-- **The body of a document that is named from outside is trimmed**: blank text before it was
passed over, and blank text behind it dropped. -/
theorem Document.isTrimmed {name? : Option String} {items : List Item}
    (h : Document src name? segments items) (hcut : WellCut segments)
    (hapart : BracesApart segments) (hlast : ∀ last ∈ segments.getLast?, last.isBlank = false)
    {name : String} {tree : Node} (hmem : .named name tree ∈ items) : tree.IsTrimmed := by
  cases h with
  | definitions hdefinitions => exact absurd hmem (hdefinitions.named_notMem name tree)
  | @named given earlier rest first items body hdefinitions hfirst hbody =>
    rcases List.mem_append.1 hmem with hmem | hmem
    · exact absurd hmem (hdefinitions.named_notMem name tree)
    · obtain ⟨rfl, rfl⟩ := Item.named.inj (List.mem_singleton.1 hmem)
      have hsuffix : first :: rest <:+: earlier ++ first :: rest :=
        (List.suffix_append _ _).isInfix
      refine hbody.isTrimmed (hcut.of_isInfix hsuffix) (hapart.of_isInfix hsuffix) hfirst.1 ?_
      intro last hmem
      exact hlast last (by simpa using hmem)

end Ends

namespace TemplateSet

variable {src code : String} {name? : Option String} {set : TemplateSet}

/-- **Templates come out of a source well-formed.** A source that is read is cut into segments,
which are a document, and the set has its templates. Every tree is well-formed, on the lines of the
source. No text in a definition ends with a brace, and the body that is named from outside is
trimmed. -/
theorem trees_are_well_formed (h : ofSource src code name? = .ok set) :
    ∃ cut items, Segmentation.ofSource src (Text.normalize code.toList) = .ok cut ∧
      Document src name? cut.segments items ∧
      (∀ name tree, set.template? name = some tree ↔ (name, tree) ∈ entries items) ∧
      (∀ name tree, set.template? name = some tree →
        tree.WellFormed src (1 + newlines (Text.normalize code.toList))) ∧
      (∀ name tree, .definition name tree ∈ items → tree.EndsClosed) ∧
      ∀ name tree, .named name tree ∈ items → tree.IsTrimmed := by
  obtain ⟨cut, items, blank?, hcut, hdissects, hlast, hdocument, hholds⟩ := exists_cut_of_ofSource h
  have hkept : cut.segments <:+: cut.segments ++ blank?.toList :=
    (List.prefix_append _ _).isInfix
  have hwell : WellCut cut.segments :=
    (hdissects.wellCut (Text.return_notMem_normalize _)).of_isInfix hkept
  have hapart : BracesApart cut.segments := hdissects.bracesApart.of_isInfix hkept
  refine ⟨cut, items, hcut, hdocument, hholds.find?_eq_some_iff, ?_, ?_, ?_⟩
  · intro name tree htree
    have hmem : (name, tree) ∈ entries items := (hholds.find?_eq_some_iff name tree).1 htree
    -- the shape comes from the grammar, the lines from where the templates stand
    obtain ⟨row, hbody, hrow⟩ := hdocument.shaped hwell (name, tree) hmem
    have hwithin := (hdocument.templateAt hdissects.inPlace.of_append
      (fun segment _ _ => segment.spells_countedLine src) hmem).within
    refine ⟨hbody.isStatements hrow, hbody.isFormed hrow hrow.isFormed,
      hwithin.mono (Nat.le_refl 1) ?_⟩
    rw [← hdissects.append_eq, List.append_nil, segmentsText_append, ← lineAfter, lineAfter_append]
    exact Nat.le_add_right _ _
  · intro name tree hmem
    exact hdocument.endsClosed hapart hmem
  · intro name tree hmem
    exact hdocument.isTrimmed hwell hapart hlast hmem

/-- A definition, and a body with a brace at its end. -/
theorem definition_and_body_are_well_formed :
    ∃ set, ofSource "m" "\x7b\x7bdefine 'x'\x7d\x7d\x7b\x7b.a\x7d\x7d\x7b\x7bend\x7d\x7d\nb\x7b"
        (some "m") = .ok set ∧
      (Node.interpolation ⟨"m", 1⟩ (.reference ⟨"m", 1⟩ ["a"])).WellFormed "m" 2 ∧
      (Node.text ⟨"m", 1⟩ "\nb\x7b").WellFormed "m" 2 := by
  obtain ⟨set, hset, hentries⟩ := exists_of_entries_eq
    (show (ofSource "m" "\x7b\x7bdefine 'x'\x7d\x7d\x7b\x7b.a\x7d\x7d\x7b\x7bend\x7d\x7d\nb\x7b"
        (some "m")).toOption.map (·.templates.entries)
      = some [("m", .text ⟨"m", 1⟩ "\nb\x7b"),
          ("x", .interpolation ⟨"m", 1⟩ (.reference ⟨"m", 1⟩ ["a"]))] by decide +kernel)
  obtain ⟨cut, items, -, -, -, hformed, -⟩ := trees_are_well_formed hset
  refine ⟨set, hset, hformed "x" _ ?_, hformed "m" _ ?_⟩
  all_goals
    rw [template?, NameMap.find?, hentries]
    rfl

end TemplateSet

end Stencil
