import Mathlib.Data.List.Flatten
import Stencil.Proofs.Document.Places

/-!
# The lines of a template

The nodes of a template are on lines of the code that they stand in. An expression counts no more
lines than its text has (`ExpressionAt.within`), so the statements of some segments are on the lines
of those segments (`StatementsAt.within`), and a template on those of its source
(`TemplateAt.within`).
-/

namespace Stencil

open Stencil.Expr (Written countedLine)
open Text (newlines)

/-- **A tree on lines of a source**, all its nodes. The bounds are those of the text that the tree
was read from, so they are carried from a directive to its expression and from a body to its
statements. -/
def Node.Within (src : String) (first last : Nat) (tree : Node) : Prop :=
  ∀ node ∈ tree.subtrees,
    node.loc.src = src ∧ first ≤ node.loc.line ∧ node.loc.line ≤ last

section Lines

variable {src : String} {first last : Nat} {tree : Node}

theorem Node.Within.mono (h : tree.Within src first last) {first' last' : Nat}
    (hfirst : first' ≤ first) (hlast : last ≤ last') : tree.Within src first' last' := by
  intro node hnode
  obtain ⟨hsrc, hge, hle⟩ := h node hnode
  exact ⟨hsrc, Nat.le_trans hfirst hge, Nat.le_trans hle hlast⟩

/-- A tree is on the lines that its root and its children are on. -/
theorem Node.within_of_children {line : Nat} (hloc : tree.loc = ⟨src, line⟩) (hfirst : first ≤ line)
    (hlast : line ≤ last) (h : ∀ child ∈ tree.children, child.Within src first last) :
    tree.Within src first last := by
  refine Node.forall_mem_subtrees_iff.2 ⟨?_, h⟩
  rw [hloc]
  exact ⟨rfl, hfirst, hlast⟩

namespace Expr

/-- No more lines are counted than there are, and none is taken back. -/
theorem countedLine_mem {start : Nat} {place row : List Lexeme} (h : place <+: row) :
    start ≤ countedLine start place ∧
      countedLine start place ≤ start + newlines (lexemesText row) := by
  obtain ⟨more, rfl⟩ := h
  refine ⟨Nat.le_add_right start _, Nat.add_le_add_left ?_ start⟩
  have hspacing : (lexemesText (place.filter (·.kind = .space))).Sublist
      (lexemesText (place ++ more)) :=
    (List.filter_sublist.trans (List.sublist_append_left place more)).flatMap _
  exact hspacing.count_le '\n'

end Expr

/-- **What lexemes spell out stays on the lines of the text that they begin.** Lines are counted
from spacing, and that is never more than there is in the text. -/
theorem Expr.Written.within {start : Nat} {content : List Char} {taken rest : List Lexeme}
    {expr : Node} (h : Written src (countedLine start) [] taken [expr])
    (htaken : lexemes content = .ok (taken ++ rest)) :
    expr.Within src start (start + newlines content) := by
  intro node hnode
  obtain ⟨place, -, hplace, hloc⟩ := h.exists_place expr (List.mem_singleton_self expr) node hnode
  -- a node is where some first lexemes end, and those are no more than the text has
  rw [hloc, ← lexemesText_of_lexemesFrom htaken]
  exact ⟨rfl, Expr.countedLine_mem (hplace.trans (List.prefix_append taken rest))⟩

/-- So does an expression. -/
theorem ExpressionAt.within {start : Nat} {content : List Char} {expr : Node}
    (h : ExpressionAt src countedLine start content expr) :
    expr.Within src start (start + newlines content) := by
  obtain ⟨row, hrow, hwritten⟩ := h
  have hwhole : lexemes content = .ok (row ++ []) := by rwa [List.append_nil]
  exact hwritten.within hwhole

/-- So does what an inclusion says. -/
theorem InclusionAt.within {start : Nat} {content : List Char} {name : Node} {data : Option Node}
    (h : InclusionAt src countedLine start content name data) :
    ∀ expr ∈ name :: data.toList, expr.Within src start (start + newlines content) := by
  cases h with
  | alone htaken hname _ => exact List.forall_mem_singleton.2 (hname.within htaken)
  | @data taken rest _ htaken hname hdata =>
    refine List.forall_mem_cons.2 ⟨hname.within htaken, List.forall_mem_singleton.2 ?_⟩
    have hcontent : newlines content
        = newlines (lexemesText taken) + newlines (lexemesText rest) := by
      rw [← lexemesText_of_lexemesFrom htaken, lexemesText_append, Text.newlines_append]
    refine hdata.within.mono (Nat.le_add_right start _) (Nat.le_of_eq ?_)
    rw [Expr.trueLine, hcontent, Nat.add_assoc]

/-- The tree of a row stays on the lines of its statements. -/
theorem within_bodyTree {before text : List Char} {nodes : List Node}
    (h : ∀ node ∈ nodes, node.Within src (lineAfter before) (lineAfter (before ++ text))) :
    (bodyTree src (lineAfter before) nodes).Within src (lineAfter before)
      (lineAfter (before ++ text)) := by
  rcases bodyTree_cases src (lineAfter before) nodes with ⟨only, rfl, -⟩ | ⟨-, hlist⟩
  · exact List.forall_mem_singleton.1 h
  · rw [hlist]
    refine Node.within_of_children rfl (Nat.le_refl _) ?_ h
    rw [lineAfter_append]
    exact Nat.le_add_right _ _

/-- The lines of a directive have those of what it says among them. -/
theorem lines_of_content (before : List Char) {text lead content : List Char}
    (h : text = lead ++ (content ++ ['}', '}'])) :
    lineAfter before ≤ lineAfter (before ++ lead) ∧
      lineAfter (before ++ lead) + newlines content ≤ lineAfter (before ++ text) := by
  simp only [h, lineAfter_append, Text.newlines_append]
  omega

/-- A statement on the lines of its text comes before others that are on theirs. This is the step of
the induction over statements, whatever the statement is. -/
theorem within_cons {before all text more : List Char} {node : Node} {nodes : List Node}
    (hall : all = text ++ more)
    (hnode : node.Within src (lineAfter before) (lineAfter (before ++ text)))
    (hnodes : ∀ other ∈ nodes,
      other.Within src (lineAfter (before ++ text)) (lineAfter (before ++ text ++ more))) :
    ∀ other ∈ node :: nodes, other.Within src (lineAfter before) (lineAfter (before ++ all)) := by
  have hlines : lineAfter before ≤ lineAfter (before ++ text) ∧
      lineAfter (before ++ text) ≤ lineAfter (before ++ all) := by
    simp only [hall, lineAfter_append, Text.newlines_append]
    omega
  rw [List.append_assoc, ← hall] at hnodes
  exact List.forall_mem_cons.2 ⟨hnode.mono (Nat.le_refl _) hlines.2,
    fun other hother => (hnodes other hother).mono hlines.1 (Nat.le_refl _)⟩

/-- **Statements stay on the lines of their segments**, with all that is under them. -/
theorem StatementsAt.within {before : List Char} {segments : List Segment} {nodes : List Node}
    (h : StatementsAt src countedLine before segments nodes) :
    ∀ node ∈ nodes,
      node.Within src (lineAfter before) (lineAfter (before ++ segmentsText segments)) := by
  induction h with
  | nil => exact List.forall_mem_nil _
  | @text before content segment rest nodes _ _ ih =>
    refine within_cons (segmentsText_cons segment rest) ?_ ih
    refine Node.within_of_children rfl (Nat.le_refl _) ?_ nofun
    rw [lineAfter_append]
    exact Nat.le_add_right _ _
  | @interpolation before lead content segment expr rest nodes _ htext hexpr _ ih =>
    obtain ⟨hfirst, hlast⟩ := lines_of_content before htext
    refine within_cons (segmentsText_cons segment rest) ?_ ih
    refine Node.within_of_children rfl (Nat.le_refl _) (by omega) ?_
    exact List.forall_mem_singleton.2 (hexpr.within.mono hfirst hlast)
  | @inclusion before lead content segment name data rest nodes _ htext hinclusion _ ih =>
    obtain ⟨hfirst, hlast⟩ := lines_of_content before htext
    refine within_cons (segmentsText_cons segment rest) ?_ ih
    refine Node.within_of_children rfl (Nat.le_refl _) (by omega) ?_
    exact fun expr hexpr => (hinclusion.within expr hexpr).mono hfirst hlast
  -- the lines go up in the order of the source: directive, body, `end`
  | @block before lead content opening closing kind expr inside rest body nodes _ htext hexpr _ _ _
      ihbody ih =>
    obtain ⟨hfirst, hlast⟩ := lines_of_content before htext
    have hall : segmentsText (opening :: (inside ++ closing :: rest))
        = segmentsText (opening :: (inside ++ [closing])) ++ segmentsText rest := by simp
    have hbody : lineAfter (before ++ opening.text ++ segmentsText inside)
        ≤ lineAfter (before ++ segmentsText (opening :: (inside ++ [closing]))) := by
      simp [lineAfter_append]
    have hopening := lineAfter_append (before ++ opening.text) (segmentsText inside)
    refine within_cons hall ?_ ih
    refine Node.within_of_children rfl (Nat.le_refl _) (by omega) ?_
    exact List.forall_mem_cons.2 ⟨hexpr.within.mono hfirst (by omega),
      List.forall_mem_singleton.2 ((within_bodyTree ihbody).mono (by omega) hbody)⟩
  -- the same with one body more, which begins where the `else` ends
  | @blockElse before lead content opening middle closing kind expr inside outside rest body orElse
      nodes _ htext hexpr _ _ _ _ _ ihbody ihelse ih =>
    obtain ⟨hfirst, hlast⟩ := lines_of_content before htext
    have hall : segmentsText (opening :: (inside ++ middle :: (outside ++ closing :: rest)))
        = segmentsText (opening :: (inside ++ middle :: (outside ++ [closing])))
          ++ segmentsText rest := by simp
    have hbody : lineAfter (before ++ opening.text ++ segmentsText inside)
        ≤ lineAfter (before ++ segmentsText (opening :: (inside ++ [middle]))) := by
      simp [lineAfter_append]
    have helse : lineAfter
          (before ++ segmentsText (opening :: (inside ++ [middle])) ++ segmentsText outside)
        ≤ lineAfter
          (before ++ segmentsText (opening :: (inside ++ middle :: (outside ++ [closing])))) := by
      simp [lineAfter_append]
    have hopening := lineAfter_append (before ++ opening.text) (segmentsText inside)
    have hmiddle := lineAfter_append (before ++ segmentsText (opening :: (inside ++ [middle])))
      (segmentsText outside)
    refine within_cons hall ?_ ih
    refine Node.within_of_children rfl (Nat.le_refl _) (by omega) ?_
    exact List.forall_mem_cons.2 ⟨hexpr.within.mono hfirst (by omega), List.forall_mem_cons.2
      ⟨(within_bodyTree ihbody).mono (by omega) (by omega),
        List.forall_mem_singleton.2 ((within_bodyTree ihelse).mono (by omega) helse)⟩⟩

/-- **A body stays on the lines of its segments.** -/
theorem BodyAt.within {before : List Char} {segments : List Segment}
    (h : BodyAt src countedLine before segments tree) :
    tree.Within src (lineAfter before) (lineAfter (before ++ segmentsText segments)) := by
  obtain ⟨nodes, hnodes, rfl⟩ := h
  exact within_bodyTree hnodes.within

/-- **A template stays on the lines of its source**, from the first to the last. -/
theorem TemplateAt.within {name? : Option String} {segments : List Segment} {name : String}
    (h : TemplateAt src countedLine name? segments name tree) :
    tree.Within src 1 (lineAfter (segmentsText segments)) := by
  cases h with
  | defined hsegments _ _ _ hbody =>
    refine hbody.within.mono (Nat.le_add_right 1 _) ?_
    simp [hsegments, lineAfter_append]
  | named _ hsegments _ _ hbody =>
    refine hbody.within.mono (Nat.le_add_right 1 _) (Nat.le_of_eq ?_)
    rw [hsegments, segmentsText_append]

end Lines

end Stencil
