import Stencil.Expr.Reader
import Stencil.Node.Source

/-!
# Bodies

A body is a row of statements; it ends before the directive that closes what it is the body of, or
at the end of the source. A single statement stands for itself, any other number makes a list.
The reader goes through the segments once and keeps the blocks that have not ended on a
stack (`Body.read`). Where it fails it says what it had not taken yet, for its
caller to go on from.
-/

namespace Stencil

/-- **A body being read**: its statements so far, and the line on which it began, which is where the
list of them will be located. -/
structure Draft where
  /-- the line on which it begins -/
  line : Nat
  /-- the statements so far, last first -/
  items : List Node

namespace Draft

/-- A body with one more statement. -/
def add (draft : Draft) (statement : Node) : Draft :=
  { draft with items := statement :: draft.items }

/-- **The whole body**: its only statement, or the list of all. So a body of one statement has no
list around it, and one of none is an empty list. -/
def close (src : String) (draft : Draft) : Node :=
  match draft.items with
  | [only] => only
  | items => .list ⟨src, draft.line⟩ items.reverse

end Draft

/-- **A block that has not ended.** It keeps the body that it stands in as that was when the block
began; the reader goes on with it once the block is whole. -/
structure OpenBlock where
  /-- the line of the directive that opened it -/
  line : Nat
  /-- its kind -/
  kind : BlockKind
  /-- its expression -/
  expr : Node
  /-- the body it stands in -/
  outer : Draft
  /-- its own body, once the alternative has begun -/
  body? : Option Node

/-- **The whole block**, as a statement of the body it stands in; `last` is the part of it that was
read last. -/
def OpenBlock.close (src : String) (block : OpenBlock) (last : Node) : Draft :=
  let node :=
    match block.body? with
    | none => Node.block ⟨src, block.line⟩ block.kind block.expr last none
    | some body => Node.block ⟨src, block.line⟩ block.kind block.expr body (some last)
  block.outer.add node

/-- **A failure with what was not taken yet**, from the segment that is to blame. The caller keeps
those segments, and so would begin with that segment if it was asked again. -/
structure Stuck where
  /-- the error -/
  error : SourceError
  /-- the segments from the one to blame on -/
  rest : List Segment

namespace Body

variable (src : String) (endLine : Nat)

/-- The line on which a row of segments begins; an empty one begins at the end of the source, and so
does the body that is read from it. -/
def lineOf : List Segment → Nat
  | [] => endLine
  | segment :: _ => segment.line

/-- A failure at the first of some segments. The segment is not taken: it is the first of those that
a later call finds. -/
def stuckAt (segment : Segment) (rest : List Segment) (fault : Fault) : Stuck :=
  ⟨.malformed ⟨src, segment.line⟩ fault, segment :: rest⟩

/-- **The reader**, from a body being read and the blocks around it on: the body, and the segments
from the directive that ends it on. A directive that ends or divides a block is taken if there is an
open block, and otherwise it ends the body and is left to the caller. -/
def run (draft : Draft) (blocks : List OpenBlock) :
    List Segment → Except Stuck (Node × List Segment)
  | [] =>
    match blocks with
    | [] => .ok (draft.close src, [])
    | _ :: _ => .error ⟨.malformed ⟨src, endLine⟩ .missingEnd, []⟩
  | segment :: rest =>
    let loc := Location.mk src segment.line
    match segment.heading with
    | .text content => run (draft.add (.text loc (String.ofList content))) blocks rest
    | .interpolation expression =>
      match Expr.read src expression segment.line with
      | .ok expr => run (draft.add (.interpolation loc expr)) blocks rest
      | .error e => .error ⟨e, segment :: rest⟩
    | .inclusion content =>
      match Expr.readInclusion src content segment.line with
      | .ok (name, data) => run (draft.add (.inclusion loc name data)) blocks rest
      | .error e => .error ⟨e, segment :: rest⟩
    | .define _ => .error (stuckAt src segment rest .misplacedDefine)
    | .block kind content =>
      match Expr.read src content segment.line with
      | .ok expr =>
        run ⟨lineOf endLine rest, []⟩ (⟨segment.line, kind, expr, draft, none⟩ :: blocks) rest
      | .error e => .error ⟨e, segment :: rest⟩
    | .orElse content =>
      match blocks with
      | [] => .ok (draft.close src, segment :: rest)
      | block :: outer =>
        if !Text.isBlank content then
          .error (stuckAt src segment rest (.contentAfterKeyword (String.ofList segment.text)))
        else if block.body?.isSome then
          .error (stuckAt src segment rest (.expectedEnd (String.ofList segment.text)))
        else
          let body := draft.close src
          run ⟨lineOf endLine rest, []⟩ ({ block with body? := some body } :: outer) rest
    | .close content =>
      match blocks with
      | [] => .ok (draft.close src, segment :: rest)
      | block :: outer =>
        if !Text.isBlank content then
          .error (stuckAt src segment rest (.contentAfterKeyword (String.ofList segment.text)))
        else
          run (block.close src (draft.close src)) outer rest

/-- **Reads the body** at the beginning of some segments. It is over at the directive that no open
block takes for its own, which is left to the caller, or at the end of the segments. -/
def read (segments : List Segment) : Except Stuck (Node × List Segment) :=
  run src endLine ⟨lineOf endLine segments, []⟩ [] segments

/-- Reading a body never makes segments. -/
theorem length_le_of_run {draft : Draft} {blocks : List OpenBlock} {segments rest : List Segment}
    {body : Node} (h : run src endLine draft blocks segments = .ok (body, rest)) :
    rest.length ≤ segments.length := by
  fun_induction run src endLine draft blocks segments <;> simp_all <;> omega

end Body

end Stencil
