import Stencil.Proofs.Document.Language
import Stencil.Proofs.Expr.Language
import Stencil.Proofs.Segment.Seam

/-!
# Definitions on other lines

Segments that are definitions are definitions on any other lines, with the same trees up to lines
(`Definitions.exists_moved`). Rows of them can be put one after the other, and blank text at the end
means nothing (`Definitions.append`, `Definitions.exists_dropTrailingBlank`).
-/

namespace Stencil

/-- **Templates without their lines**, but with the name of their source. This is what moving a
source leaves as it is. -/
def unlinedTrees (trees : List (String × Node)) : List (String × Node) :=
  trees.map fun tree => (tree.1, tree.2.unlined)

/-- The names of templates have no lines. -/
theorem map_fst_unlinedTrees (trees : List (String × Node)) :
    (unlinedTrees trees).map Prod.fst = trees.map Prod.fst := by
  rw [unlinedTrees, List.map_map]
  rfl

theorem unlinedTrees_cons (name : String) (tree : Node) (trees : List (String × Node)) :
    unlinedTrees ((name, tree) :: trees) = (name, tree.unlined) :: unlinedTrees trees := rfl

theorem unlinedTrees_append (trees others : List (String × Node)) :
    unlinedTrees (trees ++ others) = unlinedTrees trees ++ unlinedTrees others :=
  List.map_append

/-! ### Statements

A directive reads the same on any line but for the lines of its nodes. From that, the same is proved
of statements by induction over the grammar; the line on which an empty body is put depends on what
ends it, and is forgotten with all others. -/

namespace Node

theorem unlined_interpolation (loc : Location) (expr : Node) :
    (interpolation loc expr).unlined = interpolation ⟨loc.src, 0⟩ expr.unlined := rfl

theorem unlined_inclusion (loc : Location) (name : Node) (data : Option Node) :
    (inclusion loc name data).unlined
      = inclusion ⟨loc.src, 0⟩ name.unlined (data.map unlined) := by
  rw [unlined, relocate, relocateOption_eq_map]
  rfl

theorem unlined_block (loc : Location) (kind : BlockKind) (expr body : Node)
    (orElse : Option Node) :
    (block loc kind expr body orElse).unlined
      = block ⟨loc.src, 0⟩ kind expr.unlined body.unlined (orElse.map unlined) := by
  rw [unlined, relocate, relocateOption_eq_map]
  rfl

theorem unlined_list (loc : Location) (items : List Node) :
    (list loc items).unlined = list ⟨loc.src, 0⟩ (items.map unlined) := by
  rw [unlined, relocate, relocateList_eq_map]
  rfl

end Node

variable {src : String} {segments : List Segment}

/-- Statements that are the same up to lines make the same body, wherever it begins. -/
theorem unlined_bodyTree {nodes others : List Node}
    (h : others.map Node.unlined = nodes.map Node.unlined) (other line : Nat) :
    (bodyTree src other others).unlined = (bodyTree src line nodes).unlined := by
  have hlength : others.length = nodes.length := by simpa using congrArg List.length h
  -- both are single statements or both are lists, since they have the same length
  rcases bodyTree_cases src line nodes with ⟨only, rfl, honly⟩ | ⟨hmany, hlist⟩
  · obtain ⟨same, rfl⟩ := List.length_eq_one_iff.1 hlength
    exact (List.cons.inj h).1
  · rcases bodyTree_cases src other others with ⟨only, rfl, -⟩ | ⟨-, hother⟩
    · exact absurd hlength.symm hmany
    · rw [hlist, hother, Node.unlined_list, Node.unlined_list, h]

variable (move : Nat → Nat)

theorem Segment.IsEnd.moved {segment : Segment} (h : segment.IsEnd) :
    (segment.moved move).IsEnd := h

theorem Segment.IsElse.moved {segment : Segment} (h : segment.IsElse) :
    (segment.moved move).IsElse := h

/-- What ends a body is a directive. -/
theorem Segment.IsEnd.kind_eq {segment : Segment} (h : segment.IsEnd) :
    segment.kind = .directive := by
  obtain ⟨content, hheading, -⟩ := h
  exact Segment.kind_eq_directive hheading nofun

/-- **Statements on other lines are the same statements**, up to lines: no directive is read
differently for the line it stands on. -/
theorem Statements.exists_moved {nodes : List Node} (h : Statements src segments nodes) :
    ∃ others, Statements src (segments.map (Segment.moved move)) others ∧
      others.map Node.unlined = nodes.map Node.unlined := by
  induction h with
  | nil => exact ⟨[], .nil, rfl⟩
  | text hheading _ ih =>
    obtain ⟨others, hothers, hsame⟩ := ih
    exact ⟨_, .text hheading hothers, by rw [List.map_cons, List.map_cons, hsame]; rfl⟩
  | @interpolation segment content expr rest nodes hheading hread _ ih =>
    obtain ⟨others, hothers, hsame⟩ := ih
    obtain ⟨expr', hread', hexpr⟩ := Expr.exists_read_on_line hread (move segment.line)
    refine ⟨_, .interpolation hheading hread' hothers, ?_⟩
    rw [List.map_cons, List.map_cons, hsame, Node.unlined_interpolation, hexpr]
    rfl
  | @inclusion segment content name data rest nodes hheading hread _ ih =>
    obtain ⟨others, hothers, hsame⟩ := ih
    obtain ⟨name', data', hread', hname, hdata⟩ :=
      Expr.exists_readInclusion_on_line hread (move segment.line)
    refine ⟨_, .inclusion hheading hread' hothers, ?_⟩
    rw [List.map_cons, List.map_cons, hsame, Node.unlined_inclusion, Node.unlined_inclusion, hname,
      hdata]
  | @block opening closing kind content expr inside rest body nodes hheading hread _ hend _ ihbody
      ih =>
    obtain ⟨others, hothers, hsame⟩ := ih
    obtain ⟨body', hbody', hbody⟩ := ihbody
    obtain ⟨expr', hread', hexpr⟩ := Expr.exists_read_on_line hread (move opening.line)
    rw [List.map_cons, List.map_append, List.map_cons]
    refine ⟨_, .block hheading hread' hbody' (hend.moved move) hothers, ?_⟩
    rw [List.map_cons, List.map_cons, hsame, Node.unlined_block, Node.unlined_block, hexpr,
      unlined_bodyTree hbody _ (Body.lineOf closing.line inside)]
  | @blockElse opening middle closing kind content expr inside outside rest body orElse nodes
      hheading hread _ helse _ hend _ ihbody ihelse ih =>
    obtain ⟨others, hothers, hsame⟩ := ih
    obtain ⟨body', hbody', hbody⟩ := ihbody
    obtain ⟨orElse', horElse', horElse⟩ := ihelse
    obtain ⟨expr', hread', hexpr⟩ := Expr.exists_read_on_line hread (move opening.line)
    rw [List.map_cons, List.map_append, List.map_cons, List.map_append, List.map_cons]
    refine ⟨_, .blockElse hheading hread' hbody' (helse.moved move) horElse' (hend.moved move)
      hothers, ?_⟩
    rw [List.map_cons, List.map_cons, hsame, Node.unlined_block, Node.unlined_block, hexpr,
      unlined_bodyTree hbody _ (Body.lineOf middle.line inside), Option.map_some, Option.map_some,
      unlined_bodyTree horElse _ (Body.lineOf closing.line outside)]

/-! ### Definitions

The same for definitions, which can also be put one after the other. Blank text at their end is no
definition, so it can be dropped and put back, as cutting does it. -/

theorem entries_definition (name : String) (tree : Node) (items : List Item) :
    entries (.definition name tree :: items) = (name, tree) :: entries items := rfl

namespace Definitions

variable {items : List Item}

/-- **Definitions on other lines define the same trees**, up to lines. -/
theorem exists_moved (h : Definitions src segments items) :
    ∃ others, Definitions src (segments.map (Segment.moved move)) others ∧
      unlinedTrees (entries others) = unlinedTrees (entries items) := by
  induction h with
  | nil => exact ⟨[], .nil, rfl⟩
  | blank hblank _ ih =>
    obtain ⟨others, hothers, hsame⟩ := ih
    exact ⟨_, .blank hblank hothers, hsame⟩
  | @definition opening closing content loc name inside rest body items hheading hname hinside hend
      _ ih =>
    obtain ⟨others, hothers, hsame⟩ := ih
    obtain ⟨body', hbody', hbody⟩ := hinside.exists_moved move
    obtain ⟨loc', hname'⟩ := Expr.exists_read_literal_on_line hname (move opening.line)
    rw [List.map_cons, List.map_append, List.map_cons]
    refine ⟨_, .definition hheading hname' hbody' (hend.moved move) hothers, ?_⟩
    rw [entries_definition, entries_definition, unlinedTrees_cons, unlinedTrees_cons, hsame,
      unlined_bodyTree hbody _ (Body.lineOf closing.line inside)]

/-- Definitions one after the other are definitions. -/
theorem append {more : List Segment} {others : List Item} (h : Definitions src segments items)
    (hmore : Definitions src more others) :
    Definitions src (segments ++ more) (items ++ others) := by
  induction h with
  | nil => exact hmore
  | blank hblank _ ih => exact .blank hblank ih
  | definition hheading hname hinside hend _ ih =>
    rw [List.cons_append, List.append_assoc, List.cons_append, List.cons_append]
    exact .definition hheading hname hinside hend ih

/-- Blank text at the end of definitions defines nothing. -/
theorem exists_of_append_blank {blank : Segment} (h : Definitions src (segments ++ [blank]) items)
    (hblank : blank.isBlank = true) :
    ∃ others, Definitions src segments others ∧ entries others = entries items := by
  -- by induction on the whole row, at the end of which the blank text is met
  generalize hwhole : segments ++ [blank] = whole at h
  induction h generalizing segments with
  | nil => simp at hwhole
  | @blank first rest items hfirst hrest ih =>
    cases segments with
    | nil =>
      obtain ⟨rfl, rfl⟩ := List.cons.inj hwhole
      cases hrest
      exact ⟨[], .nil, rfl⟩
    | cons segment segments =>
      obtain ⟨rfl, rfl⟩ := List.cons.inj hwhole
      obtain ⟨others, hothers, hsame⟩ := ih rfl
      exact ⟨_, .blank hfirst hothers, hsame⟩
  | @definition opening closing content loc name inside rest body items hheading hname hinside hend
      hrest ih =>
    rcases List.eq_nil_or_concat rest with rfl | ⟨rest, last, rfl⟩
    · -- what comes last is an `end`, which is not blank
      have hends : segments ++ [blank] = (opening :: inside) ++ [closing] := by simpa using hwhole
      obtain ⟨-, hlast⟩ := List.append_inj' hends rfl
      have hkind : blank.kind = .directive := by
        rw [(List.cons.inj hlast).1]
        exact hend.kind_eq
      rw [((Segment.isBlank_iff blank).1 hblank).1] at hkind
      cases hkind
    · rw [List.concat_eq_append] at *
      have hends : segments ++ [blank]
          = opening :: (inside ++ closing :: rest) ++ [last] := by simpa using hwhole
      obtain ⟨rfl, hlast⟩ := List.append_inj' hends rfl
      obtain ⟨rfl, -⟩ := List.cons.inj hlast
      obtain ⟨others, hothers, hsame⟩ := ih rfl
      refine ⟨_, .definition hheading hname hinside hend hothers, ?_⟩
      rw [entries_definition, entries_definition, hsame]

variable {line : Nat} {code rest : List Char}

/-- **Blank text that is dropped defines nothing**, so the definitions before it are the same
without it. -/
theorem exists_dropTrailingBlank (h : Definitions src segments items)
    (hdissects : Dissects line code segments rest) :
    ∃ others, Definitions src (dropTrailingBlank segments) others ∧
      entries others = entries items := by
  obtain ⟨blank?, hsegments, hblank, -⟩ := hdissects.exists_blank
  cases blank? with
  | none =>
    rw [Option.toList_none, List.append_nil] at hsegments
    rw [← hsegments]
    exact ⟨items, h, rfl⟩
  | some blank =>
    rw [hsegments] at h
    exact h.exists_of_append_blank (hblank blank rfl)

/-- **Blank text that was dropped may stay**: behind definitions it is one more part without a
template. -/
theorem exists_of_dropTrailingBlank (h : Definitions src (dropTrailingBlank segments) items)
    (hdissects : Dissects line code segments rest) :
    ∃ others, Definitions src segments others ∧ entries others = entries items := by
  obtain ⟨blank?, hsegments, hblank, -⟩ := hdissects.exists_blank
  cases blank? with
  | none =>
    rw [Option.toList_none, List.append_nil] at hsegments
    exact ⟨items, by rwa [hsegments], rfl⟩
  | some blank =>
    have hlast := h.append (.blank (hblank blank rfl) .nil)
    rw [show [blank] = (some blank).toList from rfl, ← hsegments] at hlast
    refine ⟨_, hlast, ?_⟩
    rw [entries_append]
    exact List.append_nil _

end Definitions

end Stencil
