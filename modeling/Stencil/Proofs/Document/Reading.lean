import Stencil.Proofs.Document.Grammar

/-!
# What the body reader reads

The reader and the grammar of statements agree. It adds a row of statements to the body it is in,
with any blocks open around that and whatever follows (`Body.run_statements`); and every reading
takes statements first, as many as there are, before it comes to what ends a body or to the end of
the segments (`exists_statements_of_run`).
-/

namespace Stencil

/-- A body with a row of statements more. -/
def Draft.extend (draft : Draft) (nodes : List Node) : Draft :=
  { draft with items := nodes.reverse ++ draft.items }

namespace Draft

@[simp] theorem extend_nil (draft : Draft) : draft.extend [] = draft := rfl

@[simp] theorem extend_add (draft : Draft) (node : Node) (nodes : List Node) :
    (draft.add node).extend nodes = draft.extend (node :: nodes) := by
  simp [extend, add]

/-- A body that has been read from its beginning is the tree of its statements. -/
@[simp] theorem close_extend (src : String) (line : Nat) (nodes : List Node) :
    ((⟨line, []⟩ : Draft).extend nodes).close src = bodyTree src line nodes := by
  cases nodes with
  | nil => rfl
  | cons node nodes =>
    cases nodes with
    | nil => rfl
    | cons other nodes =>
      -- with two statements or more the body is a list
      have hlong : ∀ only, (node :: other :: nodes).reverse ++ [] ≠ [only] := by
        intro only h
        have hlength := congrArg List.length h
        simp at hlength
      rw [extend, close]
      split
      · next only hitems => exact absurd hitems (hlong only)
      · simp [bodyTree]

end Draft

namespace Body

variable {src : String} {endLine : Nat}

/-- Where a body ends, an empty one begins. -/
theorem lineOf_append_cons (inside rest : List Segment) (stop : Segment) :
    lineOf endLine (inside ++ stop :: rest) = lineOf stop.line inside := by
  cases inside <;> rfl

/-! ### One segment after the other

One equation for each kind of segment that the reader goes on from. Later proofs rewrite with these
and do not open the reader. -/

variable {draft : Draft} {blocks : List OpenBlock} {segment : Segment} {rest : List Segment}

theorem run_text {content : List Char} (h : segment.heading = .text content) :
    run src endLine draft blocks (segment :: rest)
      = run src endLine (draft.add (.text ⟨src, segment.line⟩ (String.ofList content))) blocks
          rest := by
  simp only [run, h]

theorem run_interpolation {content : List Char} {expr : Node}
    (h : segment.heading = .interpolation content)
    (hread : Expr.read src content segment.line = .ok expr) :
    run src endLine draft blocks (segment :: rest)
      = run src endLine (draft.add (.interpolation ⟨src, segment.line⟩ expr)) blocks rest := by
  simp only [run, h, hread]

theorem run_inclusion {content : List Char} {name : Node} {data : Option Node}
    (h : segment.heading = .inclusion content)
    (hread : Expr.readInclusion src content segment.line = .ok (name, data)) :
    run src endLine draft blocks (segment :: rest)
      = run src endLine (draft.add (.inclusion ⟨src, segment.line⟩ name data)) blocks rest := by
  simp only [run, h, hread]

theorem run_block {kind : BlockKind} {content : List Char} {expr : Node}
    (h : segment.heading = .block kind content)
    (hread : Expr.read src content segment.line = .ok expr) :
    run src endLine draft blocks (segment :: rest)
      = run src endLine ⟨lineOf endLine rest, []⟩
          (⟨segment.line, kind, expr, draft, none⟩ :: blocks) rest := by
  simp only [run, h, hread]

/-- An `else` in a block that has none yet begins its alternative. -/
theorem run_isElse {block : OpenBlock} (h : segment.IsElse) (hbody : block.body? = none) :
    run src endLine draft (block :: blocks) (segment :: rest)
      = run src endLine ⟨lineOf endLine rest, []⟩
          ({ block with body? := some (draft.close src) } :: blocks) rest := by
  obtain ⟨content, hheading, hblank⟩ := h
  simp [run, hheading, hblank, hbody]

/-- An `end` completes the innermost block. -/
theorem run_isEnd {block : OpenBlock} (h : segment.IsEnd) :
    run src endLine draft (block :: blocks) (segment :: rest)
      = run src endLine (block.close src (draft.close src)) blocks rest := by
  obtain ⟨content, hheading, hblank⟩ := h
  simp [run, hheading, hblank]

/-! ### From statements to readings

The reader works on a draft and a stack of open blocks, of which the grammar has nothing. So the
statement is about any draft and any stack: a row of statements is added to the draft and leaves the
stack as it was, though a block in the row is pushed on it and taken off again on the way. -/

/-- **A row of statements is added to the body that the reader is in**, with any blocks around it
and whatever follows. -/
theorem run_statements {inside : List Segment} {nodes : List Node}
    (h : Statements src inside nodes) (draft : Draft) (blocks : List OpenBlock)
    (rest : List Segment) :
    run src endLine draft blocks (inside ++ rest)
      = run src endLine (draft.extend nodes) blocks rest := by
  induction h generalizing draft blocks rest with
  | nil => rw [List.nil_append, Draft.extend_nil]
  | text hheading _ ih => rw [List.cons_append, run_text hheading, ih, Draft.extend_add]
  | interpolation hheading hread _ ih =>
    rw [List.cons_append, run_interpolation hheading hread, ih, Draft.extend_add]
  | inclusion hheading hread _ ih =>
    rw [List.cons_append, run_inclusion hheading hread, ih, Draft.extend_add]
  -- the header opens a block on the stack, the body goes into a fresh draft, and the `end` closes
  -- both
  | block hheading hread _ hend _ ihbody ih =>
    rw [List.cons_append, run_block hheading hread, List.append_assoc, List.cons_append,
      lineOf_append_cons, ihbody, run_isEnd hend, ih, Draft.close_extend, OpenBlock.close,
      Draft.extend_add]
  | blockElse hheading hread _ helse _ hend _ ihbody ihelse ih =>
    rw [List.cons_append, run_block hheading hread, List.append_assoc, List.cons_append,
      List.append_assoc, List.cons_append, lineOf_append_cons, ihbody, run_isElse helse rfl,
      lineOf_append_cons, ihelse, run_isEnd hend, ih, Draft.close_extend, Draft.close_extend,
      OpenBlock.close, Draft.extend_add]

/-! ### From readings to statements

The other way round the reader need not get to its end, as it stops at an `else` or `end` without a
block and leaves what is behind. So a reading is split where no more statement begins, and is said
to go on from there with the statements added; inside a block, what it goes on with has to be what
ends that block. -/

/-- **Where no statement begins**: at the end of the segments, or before an `else` or `end`. A
definition is not among these, since the reader of bodies fails there. -/
def EndsStatements (rest : List Segment) : Prop :=
  ∀ segment ∈ rest.head?,
    (∃ content, segment.heading = .orElse content) ∨ ∃ content, segment.heading = .close content

/-- Inside a block the segments do not end, and what ends a row of statements is bare: an `end`, or
an `else` if the block has none yet. -/
theorem exists_stop_of_run {block : OpenBlock} {result : Node × List Segment}
    (hends : EndsStatements rest)
    (h : run src endLine draft (block :: blocks) rest = .ok result) :
    ∃ stop others, rest = stop :: others ∧
      (stop.IsEnd ∨ stop.IsElse ∧ block.body? = none) := by
  cases rest with
  | nil => cases h
  | cons stop others =>
    refine ⟨stop, others, rfl, ?_⟩
    rcases hends stop rfl with ⟨content, hheading⟩ | ⟨content, hheading⟩
    · refine .inr ?_
      cases hblank : Text.isBlank content with
      | false => simp [run, hheading, hblank] at h
      | true =>
        cases hbody : block.body? with
        | some body => simp [run, hheading, hblank, hbody] at h
        | none => exact ⟨⟨content, hheading, hblank⟩, rfl⟩
    · refine .inl ?_
      cases hblank : Text.isBlank content with
      | false => simp [run, hheading, hblank] at h
      | true => exact ⟨content, hheading, hblank⟩

/-- **Every reading takes statements first**, as many as there are, and goes on behind them in the
same body. -/
theorem exists_statements_of_run {segments : List Segment} {result : Node × List Segment}
    (h : run src endLine draft blocks segments = .ok result) :
    ∃ inside nodes rest, segments = inside ++ rest ∧ Statements src inside nodes ∧
      EndsStatements rest ∧ run src endLine (draft.extend nodes) blocks rest = .ok result := by
  -- on the number of segments: a block takes its body, its alternative and what follows in turn
  induction hlength : segments.length using Nat.strongRecOn generalizing draft blocks segments with
  | ind n ih =>
    subst hlength
    cases segments with
    | nil => exact ⟨[], [], [], rfl, .nil, nofun, h⟩
    | cons segment segments =>
      have hlt : segments.length < (segment :: segments).length := Nat.lt_succ_self _
      cases hheading : segment.heading with
      | text content =>
        rw [run_text hheading] at h
        obtain ⟨inside, nodes, rest, rfl, hinside, hends, hrun⟩ := ih _ hlt h rfl
        exact ⟨segment :: inside, _ :: nodes, rest, rfl, .text hheading hinside, hends,
          by rwa [← Draft.extend_add]⟩
      | interpolation content =>
        cases hread : Expr.read src content segment.line with
        | error e => simp [run, hheading, hread] at h
        | ok expr =>
          rw [run_interpolation hheading hread] at h
          obtain ⟨inside, nodes, rest, rfl, hinside, hends, hrun⟩ := ih _ hlt h rfl
          exact ⟨segment :: inside, _ :: nodes, rest, rfl, .interpolation hheading hread hinside,
            hends, by rwa [← Draft.extend_add]⟩
      | inclusion content =>
        cases hread : Expr.readInclusion src content segment.line with
        | error e => simp [run, hheading, hread] at h
        | ok parts =>
          obtain ⟨name, data⟩ := parts
          rw [run_inclusion hheading hread] at h
          obtain ⟨inside, nodes, rest, rfl, hinside, hends, hrun⟩ := ih _ hlt h rfl
          exact ⟨segment :: inside, _ :: nodes, rest, rfl, .inclusion hheading hread hinside,
            hends, by rwa [← Draft.extend_add]⟩
      | define content => simp [run, hheading] at h
      | block kind content =>
        cases hread : Expr.read src content segment.line with
        | error e => simp [run, hheading, hread] at h
        | ok expr =>
          rw [run_block hheading hread] at h
          -- the body of the block comes first, then what ends it
          obtain ⟨inside, body, rest, rfl, hinside, hends, hrun⟩ := ih _ hlt h rfl
          obtain ⟨stop, others, rfl, hend | ⟨helse, -⟩⟩ := exists_stop_of_run hends hrun
          · rw [run_isEnd hend, lineOf_append_cons, Draft.close_extend] at hrun
            obtain ⟨more, nodes, rest, rfl, hmore, hends, hrun⟩ := ih _ (by grind) hrun rfl
            exact ⟨segment :: (inside ++ stop :: more), _ :: nodes, rest, by simp,
              .block hheading hread hinside hend hmore, hends, by rwa [← Draft.extend_add]⟩
          · rw [run_isElse helse rfl, lineOf_append_cons, Draft.close_extend] at hrun
            -- then comes the alternative, which has to end with an `end`
            obtain ⟨outside, orElse, rest, rfl, houtside, hends, hrun⟩ := ih _ (by grind) hrun rfl
            obtain ⟨closing, others, rfl, hend | ⟨-, hnone⟩⟩ := exists_stop_of_run hends hrun
            · rw [run_isEnd hend, lineOf_append_cons, Draft.close_extend] at hrun
              obtain ⟨more, nodes, rest, rfl, hmore, hends, hrun⟩ := ih _ (by grind) hrun rfl
              exact ⟨segment :: (inside ++ stop :: (outside ++ closing :: more)), _ :: nodes, rest,
                by simp, .blockElse hheading hread hinside helse houtside hend hmore, hends,
                by rwa [← Draft.extend_add]⟩
            · cases hnone
      -- what ends statements is not taken, so the row is empty
      | orElse content =>
        refine ⟨[], [], segment :: segments, rfl, .nil, ?_, h⟩
        rintro other ⟨⟩
        exact .inl ⟨content, hheading⟩
      | close content =>
        refine ⟨[], [], segment :: segments, rfl, .nil, ?_, h⟩
        rintro other ⟨⟩
        exact .inr ⟨content, hheading⟩

/-! ### Whole bodies -/

/-- Outside all blocks, a body ends where no statement begins. -/
theorem run_of_endsStatements (h : EndsStatements rest) :
    run src endLine draft [] rest = .ok (draft.close src, rest) := by
  cases rest with
  | nil => rfl
  | cons segment rest =>
    rcases h segment rfl with ⟨content, hheading⟩ | ⟨content, hheading⟩ <;>
      simp only [run, hheading]

/-- **A body is a row of statements**, as long as it can be. It ends where no statement begins, and
what is there is left. -/
theorem read_eq_ok_iff {segments rest : List Segment} {body : Node} :
    read src endLine segments = .ok (body, rest) ↔
      ∃ inside nodes, segments = inside ++ rest ∧ Statements src inside nodes ∧
        EndsStatements rest ∧ body = bodyTree src (lineOf endLine segments) nodes := by
  constructor
  · intro h
    obtain ⟨inside, nodes, rest', rfl, hinside, hends, hrun⟩ := exists_statements_of_run h
    rw [run_of_endsStatements hends, Draft.close_extend] at hrun
    obtain ⟨rfl, rfl⟩ := Prod.mk.inj (Except.ok.inj hrun)
    exact ⟨inside, nodes, rfl, hinside, hends, rfl⟩
  · rintro ⟨inside, nodes, rfl, hinside, hends, rfl⟩
    rw [read, run_statements hinside, run_of_endsStatements hends, Draft.close_extend]

end Body

end Stencil
