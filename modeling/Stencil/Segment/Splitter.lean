import Stencil.Segment.Basic
import Stencil.SourceError
import Stencil.Text.Literal
import Stencil.Text.Newline

/-!
# Cutting a source into segments

Text runs up to the next pair of opening braces. A directive runs to the first pair of closing
braces outside its quoted literals; if there is none, the source cannot be cut any further. The
splitter hands out one segment after the other (`Splitter.next?`), and nothing is lost between
them (`append_spanText`, `append_of_spanDirective`).
-/

namespace Stencil

/-- The text up to the first pair of opening braces, and the rest from there. -/
def spanText : List Char → List Char × List Char
  | [] => ([], [])
  | '{' :: '{' :: cs => ([], '{' :: '{' :: cs)
  | c :: cs => let (text, rest) := spanText cs; (c :: text, rest)

/-- The quote that is open after a character outside literals. -/
def quoteOpened (c : Char) : Option Char :=
  if Text.Literal.isQuote c then some c else none

/-- The quote that is open after a character inside a literal of quote `q`. -/
def quoteLeft (q c : Char) : Option Char :=
  if c = q then none else some q

/-- **The end of a directive**: splits what follows its opening braces behind the first pair
of closing braces outside quoted literals. The first argument is the quote of the literal that is
open; inside a literal a backslash takes the next character along. -/
def spanDirective : Option Char → List Char → Option (List Char × List Char)
  | _, [] => none
  | none, '}' :: '}' :: cs => some (['}', '}'], cs)
  | none, c :: cs =>
    (spanDirective (quoteOpened c) cs).map fun (inside, rest) => (c :: inside, rest)
  | some _, ['\\'] => none
  | some q, '\\' :: c :: cs =>
    (spanDirective (some q) cs).map fun (inside, rest) => ('\\' :: c :: inside, rest)
  | some q, c :: cs =>
    (spanDirective (quoteLeft q c) cs).map fun (inside, rest) => (c :: inside, rest)

/-- Text and rest make up what was cut. -/
theorem append_spanText (cs : List Char) : (spanText cs).1 ++ (spanText cs).2 = cs := by
  fun_induction spanText cs <;> simp_all

/-- Cutting off text never lengthens the rest. -/
theorem length_spanText_le (cs : List Char) : (spanText cs).2.length ≤ cs.length := by
  have := congrArg List.length (append_spanText cs)
  simp only [List.length_append] at this
  omega

/-- Directive and rest make up what was cut. -/
theorem append_of_spanDirective {quote : Option Char} {cs inside rest : List Char}
    (h : spanDirective quote cs = some (inside, rest)) : inside ++ rest = cs := by
  fun_induction spanDirective quote cs generalizing inside rest with
  | case1 => simp at h
  | case2 =>
    simp only [Option.some.injEq, Prod.mk.injEq] at h
    obtain ⟨rfl, rfl⟩ := h
    rfl
  | case3 c cs _ ih =>
    simp only [Option.map_eq_some_iff, Prod.mk.injEq] at h
    obtain ⟨⟨i, r⟩, hs, rfl, rfl⟩ := h
    simp [ih hs]
  | case4 => simp at h
  | case5 q c cs ih =>
    simp only [Option.map_eq_some_iff, Prod.mk.injEq] at h
    obtain ⟨⟨i, r⟩, hs, rfl, rfl⟩ := h
    simp [ih hs]
  | case6 q c cs _ _ ih =>
    simp only [Option.map_eq_some_iff, Prod.mk.injEq] at h
    obtain ⟨⟨i, r⟩, hs, rfl, rfl⟩ := h
    simp [ih hs]

/-- Cutting off a directive never lengthens the rest. -/
theorem length_le_of_spanDirective {quote : Option Char} {cs inside rest : List Char}
    (h : spanDirective quote cs = some (inside, rest)) : rest.length ≤ cs.length := by
  have := congrArg List.length (append_of_spanDirective h)
  simp only [List.length_append] at this
  omega

/-- **A source on its way into segments**: what is left of it, and the line it has come to. The line
goes up with every segment by the line feeds in it. -/
structure Splitter where
  /-- the name of the source, for errors -/
  src : String
  /-- what has not been cut yet -/
  rest : List Char
  /-- the line on which that begins -/
  line : Nat
  deriving DecidableEq, Repr

namespace Splitter

/-- A source before the first cut. -/
def ofSource (src : String) (code : List Char) : Splitter :=
  ⟨src, code, 1⟩

/-- Hands out the characters up to `rest` as a segment. -/
def emit (s : Splitter) (kind : SegmentKind) (text rest : List Char) :
    Except SourceError Segment × Splitter :=
  (.ok ⟨kind, text, s.line⟩, { s with rest, line := s.line + Text.newlines text })

/-- **The next segment** of a source, with what is left of it; none at its end. A directive that
never closes is an error, and nothing is left after it. -/
def next? (s : Splitter) : Option (Except SourceError Segment × Splitter) :=
  match s.rest with
  | [] => none
  | '{' :: '{' :: cs =>
    match spanDirective none cs with
    | some (inside, rest) => some (s.emit .directive ('{' :: '{' :: inside) rest)
    | none => some (.error (.unterminatedDirective ⟨s.src, s.line⟩), { s with rest := [] })
  | cs => let (text, rest) := spanText cs; some (s.emit .text text rest)

/-- **What one call does.** At the end of the source there is nothing to hand out. Before that, the
call hands out what the rest begins with as a segment, or it fails and leaves nothing. -/
theorem next?_cases (s : Splitter) :
    (s.rest = [] ∧ s.next? = none) ∨
    (∃ kind text rest, text ≠ [] ∧ text ++ rest = s.rest ∧
      s.next? = some (s.emit kind text rest)) ∨
    (s.rest ≠ [] ∧
      s.next? = some (.error (.unterminatedDirective ⟨s.src, s.line⟩), { s with rest := [] })) := by
  rw [next?]
  split
  · next hrest => exact .inl ⟨hrest, rfl⟩
  · next cs hrest =>
    cases hspan : spanDirective none cs with
    | none => exact .inr (.inr ⟨by simp [hrest], rfl⟩)
    | some cut =>
      have happend := append_of_spanDirective hspan
      exact .inr (.inl ⟨_, _, _, List.cons_ne_nil _ _, by simp [hrest, happend], rfl⟩)
  · next hne hopen =>
    -- where no directive begins, the text has the first character at least
    obtain ⟨c, cs, hrest⟩ := List.exists_cons_of_ne_nil hne
    have hspan : spanText (c :: cs) = (c :: (spanText cs).1, (spanText cs).2) := by
      rw [spanText]
      rintro ds rfl rfl
      exact hopen ds hrest
    exact .inr (.inl ⟨_, _, _, by simp [hrest, hspan], append_spanText s.rest, rfl⟩)

/-- Every segment takes something away from the source. -/
theorem length_lt_of_next? {s t : Splitter} {r : Except SourceError Segment}
    (h : s.next? = some (r, t)) : t.rest.length < s.rest.length := by
  rcases s.next?_cases with ⟨-, hnone⟩ | ⟨kind, text, rest, hne, happend, hsome⟩ | ⟨hne, herror⟩
  · cases hnone.symm.trans h
  · cases hsome.symm.trans h
    rw [← happend, List.length_append]
    exact Nat.lt_add_of_pos_left (List.length_pos_iff.2 hne)
  · cases herror.symm.trans h
    exact List.length_pos_iff.2 hne

/-- **All segments of a source**, with the splitter behind the last of them, or the error that ends
them. What that splitter has counted is the line on which the source ends. -/
def cut (s : Splitter) : Except SourceError (List Segment × Splitter) :=
  match h : s.next? with
  | none => .ok ([], s)
  | some (.error e, _) => .error e
  | some (.ok segment, t) =>
    have : t.rest.length < s.rest.length := length_lt_of_next? h
    t.cut.map fun (segments, last) => (segment :: segments, last)
termination_by s.rest.length

/-- The segments alone. -/
def segments (s : Splitter) : Except SourceError (List Segment) :=
  s.cut.map Prod.fst

end Splitter

/-- **A source in segments**, with the line on which it ends. That is where an error is located that
is about something missing at the end. -/
structure Segmentation where
  /-- the segments, without blank text at the end -/
  segments : List Segment
  /-- the line of the end of the source -/
  endLine : Nat
  deriving DecidableEq, Repr

/-- The segments without the blank ones at the end. -/
def dropTrailingBlank (segments : List Segment) : List Segment :=
  (segments.reverse.dropWhile Segment.isBlank).reverse

/-- **Cuts a source into segments.** Blank text at its end is dropped, but counts for its lines. -/
def Segmentation.ofSource (src : String) (code : List Char) : Except SourceError Segmentation :=
  (Splitter.ofSource src code).cut.map fun (segments, last) =>
    ⟨dropTrailingBlank segments, last.line⟩

end Stencil
