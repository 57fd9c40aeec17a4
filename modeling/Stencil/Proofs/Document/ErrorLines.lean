import Stencil.Proofs.Document.Errors
import Stencil.Proofs.Document.Lines

/-!
# The lines of errors

A source that cannot be read has a directive that never closes, or it is cut to its end and
malformed (`TemplateSet.errors_are_placed`). In the first case the error is on the line where that
directive begins, whatever is wrong before it. In the second it is on a line of the segment to
blame, or at the end of the source; the reader of expressions only ever goes on to later lines, and
counts no more of them than the directive has.
-/

namespace Stencil

open Text (newlines)

/-- **An error on lines of a source**, of the name that it goes by, both ends included. -/
def SourceError.Within (src : String) (first last : Nat) (e : SourceError) : Prop :=
  e.loc.src = src ∧ first ≤ e.loc.line ∧ e.loc.line ≤ last

theorem SourceError.Within.mono {src : String} {first last : Nat} {e : SourceError}
    (h : e.Within src first last) {first' last' : Nat} (hfirst : first' ≤ first)
    (hlast : last ≤ last') : e.Within src first' last' :=
  ⟨h.1, Nat.le_trans hfirst h.2.1, Nat.le_trans h.2.2 hlast⟩

/-! ### Expressions

The reader of expressions carries a line along and raises it at white space only. What it has
counted and what is left over are together no more than the text has, which is kept by every step
(`line_of_run`) and bounds the line of every error. -/

namespace Expr

variable {src : String} {text : List Char} {line : Nat} {e : SourceError}

/-- **The reader comes to no line that is not there**: where it stops, it has counted no more lines
than it has taken. -/
theorem line_of_run {row : List Lexeme} {expecting : Expecting} {calls : List OpenCall}
    {reading : Reading} (h : run src text expecting calls line row = .ok reading) :
    line ≤ reading.line ∧
      reading.line + newlines reading.remainder ≤ line + newlines (lexemesText row) := by
  -- along the run: white space moves line feeds from the text to the line, other lexemes drop
  -- theirs
  fun_induction run src text expecting calls line row with
  | case1 | case5 =>
    cases h
    exact ⟨Nat.le_refl _, Nat.le_refl _⟩
  | case2 | case6 => cases h
  | case3 _ _ _ _ _ _ ih =>
    obtain ⟨hfirst, hlast⟩ := ih h
    rw [lexemesText_cons, Text.newlines_append]
    omega
  | case4 _ _ _ _ _ _ _ _ _ ih =>
    obtain ⟨hfirst, hlast⟩ := ih h
    rw [lexemesText_cons, Text.newlines_append]
    omega

/-- So it fails on one of the lines of the lexemes. -/
theorem within_of_run {row : List Lexeme} {expecting : Expecting} {calls : List OpenCall}
    (h : run src text expecting calls line row = .error e) :
    e.Within src line (line + newlines (lexemesText row)) := by
  fun_induction run src text expecting calls line row with
  | case1 | case5 => cases h
  | case2 | case6 =>
    cases h
    exact ⟨rfl, Nat.le_refl _, Nat.le_add_right _ _⟩
  | case3 line lexeme rest _ _ _ ih =>
    rw [lexemesText_cons, Text.newlines_append, ← Nat.add_assoc]
    exact (ih h).mono (Nat.le_add_right _ _) (Nat.le_refl _)
  | case4 _ _ line lexeme rest _ _ _ _ ih =>
    rw [lexemesText_cons, Text.newlines_append]
    exact (ih h).mono (Nat.le_refl _) (by omega)

/-- What is left over is behind what was read, on the line that was come to or a later one. -/
theorem line_of_readFirst {reading : Reading} (h : readFirst src text line = .ok reading) :
    line ≤ reading.line ∧ reading.line ≤ line + newlines text ∧
      newlines (upTo text reading.remainder) + newlines reading.remainder = newlines text := by
  obtain ⟨taken, htaken, -⟩ := exists_written_of_readFirst h
  have htext : lexemesText taken ++ reading.remainder = text := by
    rw [← lexemesText_of_lexemesFrom htaken, lexemesText_append, Reading.remainder]
  rw [readFirst, htaken] at h
  obtain ⟨hfirst, hlast⟩ := line_of_run h
  rw [lexemesText_of_lexemesFrom htaken] at hlast
  refine ⟨hfirst, Nat.le_trans (Nat.le_add_right _ _) hlast, ?_⟩
  rw [Reading.remainder, upTo_lexemesText htaken, ← Text.newlines_append]
  exact congrArg newlines htext

theorem within_of_readFirst (h : readFirst src text line = .error e) :
    e.Within src line (line + newlines text) := by
  unfold readFirst at h
  split at h
  · next hrow =>
    rw [← lexemesText_of_lexemesFrom hrow]
    exact within_of_run h
  · cases h
    exact ⟨rfl, Nat.le_refl _, Nat.le_add_right _ _⟩

/-- **An expression that cannot be read fails on one of its lines**, not before the first nor after
the last. -/
theorem within_of_read (h : read src text line = .error e) :
    e.Within src line (line + newlines text) := by
  unfold read at h
  split at h
  · next hfirst =>
    cases h
    exact within_of_readFirst hfirst
  · next reading hreading =>
    obtain ⟨hge, hle, -⟩ := line_of_readFirst hreading
    split at h <;> cases h
    exact ⟨rfl, hge, hle⟩

/-- So does what an inclusion should say: its data begins behind its name. -/
theorem within_of_readInclusion (h : readInclusion src text line = .error e) :
    e.Within src line (line + newlines text) := by
  unfold readInclusion at h
  split at h
  · next hfirst =>
    cases h
    exact within_of_readFirst hfirst
  · next reading hreading =>
    obtain ⟨-, -, hnewlines⟩ := line_of_readFirst hreading
    dsimp only at h
    split at h
    · cases h
    -- the data begin on the line that the text in front of them comes to
    · cases hdata : read src reading.remainder
          (line + newlines (upTo text reading.remainder)) with
      | ok data =>
        rw [hdata] at h
        cases h
      | error e' =>
        rw [hdata] at h
        cases h
        refine (within_of_read hdata).mono (Nat.le_add_right _ _) (Nat.le_of_eq ?_)
        rw [Nat.add_assoc, hnewlines]

end Expr

/-! ### Segments

A segment knows its line, and its last line is that of its last character. An error in a directive
is on one of the lines between, as its expression begins no earlier and has no more lines than the
directive. -/

section Segments

variable {src : String} {code rest : List Char} {segments : List Segment} {segment : Segment}
  {e : SourceError}

/-- The last line of a segment. -/
def Segment.lastLine (segment : Segment) : Nat :=
  segment.line + newlines segment.text

/-- A segment is on lines of the source. -/
theorem Dissects.lines_of_mem (h : Dissects 1 code segments rest) (hmem : segment ∈ segments) :
    1 ≤ segment.line ∧ segment.lastLine ≤ lineAfter code := by
  obtain ⟨before, after, hsplit⟩ := List.append_of_mem hmem
  have hcode : code = segmentsText before ++ (segment.text ++ (segmentsText after ++ rest)) := by
    rw [← h.append_eq, hsplit]
    simp [List.append_assoc]
  rw [Segment.lastLine, h.line_eq before segment after hsplit, hcode, lineAfter]
  simp only [Text.newlines_append]
  omega

/-- What a directive says has no more lines than the directive. -/
theorem Dissects.newlines_content_le (h : Dissects 1 code segments rest)
    (hmem : segment ∈ segments) (hkind : segment.kind = .directive) :
    newlines segment.heading.content ≤ newlines segment.text := by
  obtain ⟨before, after, hsplit⟩ := List.append_of_mem hmem
  obtain ⟨lead, htext, -⟩ := (h.inPlace.behind hsplit).exists_lead hkind
  rw [htext]
  simp only [Text.newlines_append]
  omega

/-- **A directive that is misread has its error on one of its lines**, which are lines of the
source. -/
theorem Segment.Misread.within (hmisread : segment.Misread src e)
    (h : Dissects 1 code segments rest) (hmem : segment ∈ segments) :
    e.Within src segment.line segment.lastLine := by
  obtain ⟨hkind, hread⟩ := hmisread.exists_content
  have hlast : segment.line + newlines segment.heading.content ≤ segment.lastLine :=
    Nat.add_le_add_left (h.newlines_content_le hmem hkind) _
  rcases hread with hread | hread
  · exact (Expr.within_of_read hread).mono (Nat.le_refl _) hlast
  · exact (Expr.within_of_readInclusion hread).mono (Nat.le_refl _) hlast

/-- **A segment or the end of the source is to blame**: the error is there, and if it is about an
expression then it is that of a directive. -/
theorem Blamed.placed {cut : List Segment} (hblamed : Blamed src (lineAfter code) cut e)
    (h : Dissects 1 code segments rest) (hcut : cut ⊆ segments) :
    ∃ loc fault, e = .malformed loc fault ∧
      ((fault = .missingEnd ∧ loc = ⟨src, lineAfter code⟩) ∨
        ∃ segment ∈ segments, e.Within src segment.line segment.lastLine ∧
          (fault.isOfExpression = true → segment.Misread src e)) := by
  cases hblamed with
  | @directive segment _ hmem hmisread =>
    obtain ⟨-, hread⟩ := hmisread.exists_content
    obtain ⟨loc, fault, rfl, -⟩ : Expr.IsFailure e := by
      rcases hread with hread | hread
      · exact Expr.isFailure_of_read hread
      · exact Expr.isFailure_of_readInclusion hread
    exact ⟨loc, fault, rfl, .inr ⟨segment, hcut hmem, hmisread.within h (hcut hmem),
      fun _ => hmisread⟩⟩
  | @segment segment fault hmem hfault =>
    have hwithin : SourceError.Within src segment.line segment.lastLine
        (.malformed ⟨src, segment.line⟩ fault) := ⟨rfl, Nat.le_refl _, Nat.le_add_right _ _⟩
    refine ⟨_, fault, rfl, .inr ⟨segment, hcut hmem, hwithin, fun hexpression => ?_⟩⟩
    -- how directives fit together is no matter of an expression
    cases hfault <;> cases hexpression
  | atEnd => exact ⟨_, _, rfl, .inl ⟨rfl, rfl⟩⟩

end Segments

/-! ### Sources

The two kinds of error exclude each other because a source is dissected in one way only: either
something is left of it that opens and never closes, or nothing is. -/

/-- **A source has a directive that never closes**, behind some text and complete directives. What
stands before it is given, as that decides its line. -/
def OpensBehind (code before : List Char) : Prop :=
  ∃ segments rest, Dissects 1 code segments rest ∧ rest ≠ [] ∧ segmentsText segments = before

namespace OpensBehind

variable {code before other : List Char}

/-- There is one such directive at most. -/
theorem unique (h : OpensBehind code before) (h' : OpensBehind code other) : other = before := by
  obtain ⟨segments, rest, hdissects, -, rfl⟩ := h
  obtain ⟨others, stop, hothers, -, rfl⟩ := h'
  rw [(hdissects.unique hothers).1]

/-- The line where it begins is one of the source. -/
theorem within (h : OpensBehind code before) {src : String} :
    (SourceError.unterminatedDirective ⟨src, lineAfter before⟩).Within src 1 (lineAfter code) := by
  obtain ⟨segments, rest, hdissects, -, rfl⟩ := h
  refine ⟨rfl, Nat.le_add_right _ _, ?_⟩
  rw [← hdissects.append_eq, lineAfter_append]
  exact Nat.le_add_right _ _

end OpensBehind

/-- **Cutting fails for a directive that never closes**, and on the line where it begins. There is
no other way for it to fail. -/
theorem segmentation_eq_error_iff {src : String} {code : List Char} {e : SourceError} :
    Segmentation.ofSource src code = .error e ↔
      ∃ before, OpensBehind code before ∧ e = .unterminatedDirective ⟨src, lineAfter before⟩ := by
  obtain ⟨segments, rest, h, -⟩ := exists_dissects 1 code
  rw [Segmentation.ofSource_eq, Splitter.ofSource]
  constructor
  · intro hcut
    by_cases hrest : rest = []
    · subst hrest
      rw [h.segments_eq_ok] at hcut
      cases hcut
    · rw [h.segments_eq_error hrest] at hcut
      cases hcut
      exact ⟨_, ⟨segments, rest, h, hrest, rfl⟩, rfl⟩
  · rintro ⟨_, ⟨others, stop, hothers, hstop, rfl⟩, rfl⟩
    rw [hothers.segments_eq_error hstop]
    rfl

/-- **Errors are classified and placed.** If a source cannot be read, its error is on one of its
lines. It is that of a directive that does not close if and only if the source has one, whatever is
wrong before it, and then it is on the line where that directive begins. Any other source is cut to
its end. Then the error is found at the end, where a block or definition should end, or on a line of
one of its segments; an error about an expression is that of a directive, which is misread, and is
on one of the lines of that directive. -/
theorem TemplateSet.errors_are_placed {src code : String} {name? : Option String} {e : SourceError}
    (h : ofSource src code name? = .error e) :
    e.Within src 1 (lineAfter (Text.normalize code.toList)) ∧
    (∀ loc, e = .unterminatedDirective loc ↔
      ∃ before, OpensBehind (Text.normalize code.toList) before ∧ loc = ⟨src, lineAfter before⟩) ∧
    ∀ loc fault, e = .malformed loc fault →
      ∃ segments, Dissects 1 (Text.normalize code.toList) segments [] ∧
        ((fault = .missingEnd ∧ loc = ⟨src, lineAfter (Text.normalize code.toList)⟩) ∨
          ∃ segment ∈ segments, e.Within src segment.line segment.lastLine ∧
            (fault.isOfExpression = true → segment.Misread src e)) := by
  generalize hchars : Text.normalize code.toList = chars
  have hblamed := blamed_of_ofSource h
  rw [hchars] at hblamed
  -- the source is not cut, or it is cut and its segments are to blame
  rcases hblamed with hcut | ⟨cut, hcut, hblamed⟩
  · obtain ⟨before, hopens, rfl⟩ := segmentation_eq_error_iff.1 hcut
    refine ⟨hopens.within, fun loc => ⟨?_, ?_⟩, nofun⟩
    · rintro ⟨⟩
      exact ⟨before, hopens, rfl⟩
    · rintro ⟨other, hother, rfl⟩
      rw [hopens.unique hother]
  · obtain ⟨segments, hdissects, rfl⟩ := exists_dissects_of_segmentation hcut
    obtain ⟨loc, fault, rfl, hplaced⟩ :=
      hblamed.placed hdissects (dropTrailingBlank_isPrefix segments).subset
    refine ⟨?_, fun other => ⟨nofun, ?_⟩, ?_⟩
    · rcases hplaced with ⟨-, rfl⟩ | ⟨segment, hmem, hwithin, -⟩
      · exact ⟨rfl, Nat.le_add_right _ _, Nat.le_refl _⟩
      · obtain ⟨hfirst, hlast⟩ := hdissects.lines_of_mem hmem
        exact hwithin.mono hfirst hlast
    · -- a source that is cut to its end opens nothing that does not close
      rintro ⟨before, hopens, -⟩
      have herror : Segmentation.ofSource src chars
          = .error (.unterminatedDirective ⟨src, lineAfter before⟩) :=
        segmentation_eq_error_iff.2 ⟨before, hopens, rfl⟩
      cases hcut.symm.trans herror
    · rintro _ _ ⟨⟩
      exact ⟨segments, hdissects, hplaced⟩

/-- An operand is missing on the third line: of the directives of the source, the one over the last
two lines is misread. -/
theorem TemplateSet.missing_operand_is_on_third_line :
    let code := "\x7b\x7bif .a\x7d\x7d\n\x7b\x7bf(.b,\n)\x7d\x7d"
    let e := SourceError.malformed ⟨"page", 3⟩ (.unexpectedLexeme ")" "f(.b,\n)")
    ofSource "page" code (some "page") = .error e ∧
      e.Within "page" 1 (lineAfter (Text.normalize code.toList)) ∧
      ∃ segments, Dissects 1 (Text.normalize code.toList) segments [] ∧
        ∃ segment ∈ segments, segment.Misread "page" e ∧
          e.Within "page" segment.line segment.lastLine := by
  intro code e
  have hfails : ofSource "page" code (some "page") = .error e := by
    have herror : (match ofSource "page" code (some "page") with
        | .ok _ => none
        | .error e => some e) = some e := by decide +kernel
    split at herror
    · cases herror
    · next hresult => rw [hresult, Option.some.inj herror]
  clear_value code
  obtain ⟨hwithin, -, hmalformed⟩ := errors_are_placed hfails
  obtain ⟨segments, hdissects, ⟨⟨⟩, -⟩ | ⟨segment, hmem, hlines, hmisread⟩⟩ := hmalformed _ _ rfl
  exact ⟨hfails, hwithin, segments, hdissects, segment, hmem, hmisread rfl, hlines⟩

end Stencil
