import Stencil.Proofs.Segment.Dissection

/-!
# Cutting is exact

What comes out of cutting a source is its dissection, whole: all segments but for blank text at the
end, and the line on which the source ends; or the error of the directive that is never complete.
The text of the segments is cut into the same segments again.
-/

namespace Stencil

open Text (newlines)

/-! ### All segments

`segments` asks until nothing is left, so it follows a dissection to its end. Whether it answers
segments or an error depends on the rest of the dissection only. -/

namespace Dissects

variable {line : Nat} {code rest : List Char} {segments : List Segment}

/-- **A source that is dissected to its end has those segments**: a dissection is all that the
splitter can come to. -/
theorem segments_eq_ok (h : Dissects line code segments []) (src : String) :
    (Splitter.mk src code line).segments = .ok segments := by
  induction segments generalizing line code with
  | nil =>
    obtain rfl : [] = code := h.append_eq
    exact Splitter.segments_nil
  | cons segment segments ih =>
    rw [Splitter.segments_of_next? (h.next?_eq src), ih h.tail]
    rfl

/-- **A source of which something is left has no segments**, but the error of what is left, on its
line. -/
theorem segments_eq_error (h : Dissects line code segments rest) (hrest : rest ≠ [])
    (src : String) :
    (Splitter.mk src code line).segments
      = .error (.unterminatedDirective ⟨src, line + newlines (segmentsText segments)⟩) := by
  induction segments generalizing line code with
  | nil =>
    -- no segment in front: the source begins with what is left
    obtain rfl : rest = code := h.append_eq
    obtain ⟨⟨cs, rfl⟩, hnone⟩ := h.stuck hrest
    exact Splitter.segments_of_next?_error (Splitter.next?_unterminated hnone)
  | cons segment segments ih =>
    rw [Splitter.segments_of_next? (h.next?_eq src), ih h.tail, segmentsText_cons,
      Text.newlines_append, Nat.add_assoc]
    rfl

end Dissects

/-! ### Blank text at the end

Blank segments are dropped from the end as long as there are any. In a dissection text never follows
text, so at most one is dropped, and what is kept ends with a segment that is not blank. -/

/-- Only at the end is anything dropped. -/
theorem dropTrailingBlank_isPrefix (segments : List Segment) :
    dropTrailingBlank segments <+: segments := by
  rw [dropTrailingBlank, ← List.reverse_suffix, List.reverse_reverse]
  exact List.dropWhile_suffix _

/-- Segments of which the last is not blank are all kept. -/
theorem dropTrailingBlank_eq_self {segments : List Segment}
    (h : ∀ last ∈ segments.getLast?, last.isBlank = false) :
    dropTrailingBlank segments = segments := by
  rcases List.eq_nil_or_concat segments with rfl | ⟨init, last, rfl⟩
  · rfl
  · have hlast : last.isBlank = false := h last (by simp)
    simp [dropTrailingBlank, hlast]

/-- A blank segment at the end is dropped. -/
theorem dropTrailingBlank_append_of_isBlank {last : Segment} (h : last.isBlank = true)
    (init : List Segment) : dropTrailingBlank (init ++ [last]) = dropTrailingBlank init := by
  simp [dropTrailingBlank, h]

/-- **Of a dissection at most one segment is dropped**: no text stands before blank text, so behind
the dropped one there is nothing more to drop. -/
theorem Dissects.exists_blank {line : Nat} {code rest : List Char} {segments : List Segment}
    (h : Dissects line code segments rest) :
    ∃ blank? : Option Segment, segments = dropTrailingBlank segments ++ blank?.toList ∧
      (∀ blank ∈ blank?, blank.isBlank = true) ∧
      ∀ last ∈ (dropTrailingBlank segments).getLast?, last.isBlank = false := by
  by_cases hwhole : ∀ last ∈ segments.getLast?, last.isBlank = false
  · rw [dropTrailingBlank_eq_self hwhole]
    exact ⟨none, by simp, by simp, hwhole⟩
  obtain ⟨last, hlast, hblank⟩ : ∃ last ∈ segments.getLast?, last.isBlank = true := by
    simpa using hwhole
  obtain ⟨init, rfl⟩ := List.getLast?_eq_some_iff.1 hlast
  -- were the one before blank too, it would be text with text behind it
  have hkept : ∀ previous ∈ init.getLast?, previous.isBlank = false := by
    intro previous hprevious
    obtain ⟨init', rfl⟩ := List.getLast?_eq_some_iff.1 hprevious
    rw [Bool.eq_false_iff]
    intro hprevious
    simp only [Segment.isBlank, Bool.and_eq_true, beq_iff_eq] at hblank hprevious
    have hkind : last.kind = .directive := h.apart init' previous last [] (by simp) hprevious.1
    rw [hblank.1] at hkind
    cases hkind
  rw [dropTrailingBlank_append_of_isBlank hblank, dropTrailingBlank_eq_self hkept]
  refine ⟨some last, rfl, ?_, hkept⟩
  rintro blank ⟨⟩
  exact hblank

/-! ### Whole sources

A source has its one dissection, from line 1. Everything that is said of a source that is cut, or is
not cut, is read off that dissection and its rest. -/

/-- The segments of a source dissect it to its end. -/
theorem dissects_of_segments {src : String} {code : List Char} {segments : List Segment}
    (h : (Splitter.ofSource src code).segments = .ok segments) : Dissects 1 code segments [] := by
  obtain ⟨others, rest, hdissects, -⟩ := exists_dissects 1 code
  rw [Splitter.ofSource] at h
  by_cases hrest : rest = []
  · subst hrest
    rw [hdissects.segments_eq_ok] at h
    cases h
    exact hdissects
  · rw [hdissects.segments_eq_error hrest] at h
    cases h

/-- **A source that is cut is dissected to its end**, and ends on the line that its text comes
to. -/
theorem exists_dissects_of_segmentation {src : String} {code : List Char} {cut : Segmentation}
    (h : Segmentation.ofSource src code = .ok cut) :
    ∃ segments, Dissects 1 code segments [] ∧
      cut = ⟨dropTrailingBlank segments, 1 + newlines code⟩ := by
  rw [Segmentation.ofSource_eq] at h
  cases hsegments : (Splitter.ofSource src code).segments with
  | error e =>
    rw [hsegments] at h
    cases h
  | ok segments =>
    rw [hsegments] at h
    cases h
    exact ⟨segments, dissects_of_segments hsegments, rfl⟩

/-- A source that is not cut has a directive that does not close. -/
theorem exists_loc_of_segmentation_eq_error {src : String} {code : List Char} {e : SourceError}
    (h : Segmentation.ofSource src code = .error e) : ∃ loc, e = .unterminatedDirective loc := by
  obtain ⟨segments, rest, hdissects, -⟩ := exists_dissects 1 code
  rw [Segmentation.ofSource_eq, Splitter.ofSource] at h
  by_cases hrest : rest = []
  · subst hrest
    rw [hdissects.segments_eq_ok] at h
    cases h
  · rw [hdissects.segments_eq_error hrest] at h
    cases h
    exact ⟨_, rfl⟩

/-- **Cutting is exact.** A source falls into segments and a rest in one way. The splitter hands out
those segments one by one, then an error if and only if something is left, which is a directive that
is never complete, and then nothing, however often it is asked; the text of the segments is cut into
them again. A source of which nothing is left is cut into all of them but at most one, which is
blank text at the end, and ends on the line that the splitter has come to; cutting the text of what
is kept gives the same. A source of which something is left is not cut. -/
theorem cuts_exactly (src : String) (code : List Char) :
    ∃ segments rest, Dissects 1 code segments rest ∧
      (∀ others stop, Dissects 1 code others stop → others = segments ∧ stop = rest) ∧
      (∀ n, (Splitter.ofSource src code).answer? n
        = (segments.map Except.ok ++ lastAnswer src 1 segments rest)[n]?) ∧
      (∀ n, (Splitter.ofSource src (segmentsText segments)).answer? n
        = (segments.map Except.ok)[n]?) ∧
      (rest = [] → ∃ kept blank?, segments = kept ++ Option.toList blank? ∧
        (∀ blank ∈ blank?, blank.isBlank = true) ∧
        (∀ last ∈ kept.getLast?, last.isBlank = false) ∧
        Segmentation.ofSource src code = .ok ⟨kept, 1 + newlines code⟩ ∧
        ((Splitter.ofSource src code).after segments.length).line = 1 + newlines code ∧
        Segmentation.ofSource src (segmentsText kept)
          = .ok ⟨kept, 1 + newlines (segmentsText kept)⟩) ∧
      (rest ≠ [] → Segmentation.ofSource src code
        = .error (.unterminatedDirective ⟨src, 1 + newlines (segmentsText segments)⟩)) := by
  obtain ⟨segments, rest, h, -⟩ := exists_dissects 1 code
  refine ⟨segments, rest, h, fun others stop => h.unique, fun n => h.answer?_eq src n, ?_, ?_, ?_⟩
  · intro n
    -- the segments are a dissection of their own text, with nothing behind them
    have hwhole : Dissects 1 code (segments ++ []) rest := by rwa [List.append_nil]
    have hagain : Dissects 1 (segmentsText segments) segments [] := hwhole.of_append
    rw [Splitter.ofSource, hagain.answer?_eq src n, lastAnswer, List.append_nil]
  · rintro rfl
    have hcode : segmentsText segments = code := by simpa using h.append_eq
    -- the kept segments are the first ones, so they too are a dissection of their own text
    obtain ⟨blank?, hsegments, hblank, hkept⟩ := h.exists_blank
    have hwhole : Dissects 1 code (dropTrailingBlank segments ++ blank?.toList) [] := by
      rwa [← hsegments]
    have hagain : Dissects 1 (segmentsText (dropTrailingBlank segments))
        (dropTrailingBlank segments) [] := hwhole.of_append
    refine ⟨_, blank?, hsegments, hblank, hkept, ?_, ?_, ?_⟩
    · rw [Segmentation.ofSource_eq, Splitter.ofSource, h.segments_eq_ok, Except.map]
    · rw [Splitter.ofSource, h.line_after, hcode]
    · rw [Segmentation.ofSource_eq, Splitter.ofSource, hagain.segments_eq_ok, Except.map,
        dropTrailingBlank_eq_self hkept]
  · intro hrest
    rw [Segmentation.ofSource_eq, Splitter.ofSource, h.segments_eq_error hrest, Except.map]

end Stencil
