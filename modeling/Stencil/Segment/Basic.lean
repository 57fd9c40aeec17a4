import Stencil.Text.Blank

/-!
# Segments

A source is a row of segments: stretches of text, and directives from their opening braces to
their closing ones. A segment keeps its text whole; the interior of a directive is what stands
between the braces (`interior_directive`).
-/

namespace Stencil

/-- **The two kinds of segment.** Which directive it is does not matter for cutting: that is read
off its interior later. -/
inductive SegmentKind
  /-- text that stands as it is -/
  | text
  /-- a directive, its braces included -/
  | directive
  deriving DecidableEq, Repr, Inhabited

/-- **A stretch of source** of one kind, with all its characters: segments in a row are the source
they were cut from. -/
structure Segment where
  /-- which of the two kinds it is -/
  kind : SegmentKind
  /-- the characters, braces included -/
  text : List Char
  /-- the line on which it begins, counted from one -/
  line : Nat
  deriving DecidableEq, Repr, Inhabited

/-- Drops characters until a number of bytes is gone. A character that is longer than what is left
of the number goes as a whole. -/
def dropBytes : Nat → List Char → List Char
  | _, [] => []
  | 0, cs => cs
  | n, c :: cs => dropBytes (n - c.utf8Size) cs

namespace Segment

/-- **The interior** of a directive: its text without the two bytes of braces at either end. A text
segment is all interior. Nothing is checked here: that a directive begins and ends with braces is a
property of the segments that a splitter hands out. -/
def interior (segment : Segment) : List Char :=
  match segment.kind with
  | .text => segment.text
  | .directive => (dropBytes 2 (dropBytes 2 segment.text).reverse).reverse

/-- Whether a segment is text that holds white space only. -/
def isBlank (segment : Segment) : Bool :=
  segment.kind == .text && Text.isBlank segment.text

/-- What stands between the braces of a directive is its interior. -/
theorem interior_directive (cs : List Char) (line : Nat) :
    (Segment.mk .directive ('{' :: '{' :: (cs ++ ['}', '}'])) line).interior = cs := by
  have open_braces (ds : List Char) : dropBytes 2 ('{' :: '{' :: ds) = ds := by
    cases ds <;> rfl
  have close_braces (ds : List Char) : dropBytes 2 ('}' :: '}' :: ds) = ds := by
    cases ds <;> rfl
  simp [interior, open_braces, close_braces]

end Segment

/-- The characters of a row of segments. -/
def segmentsText (segments : List Segment) : List Char :=
  segments.flatMap (·.text)

end Stencil
