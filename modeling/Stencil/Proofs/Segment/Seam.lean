import Stencil.Proofs.Segment.Exactness
import Stencil.Segment.Heading

/-!
# Pieces of sources

Segments know their lines and nothing else of the source that they stand in. So the segments of a
piece of source are the same wherever it stands, but for their lines (`Dissects.moved`), and behind
a directive any source may follow (`Dissects.append`). Blank text grows together with the blank text
behind it, and stays apart from a directive (`Dissects.blank_append`, `Dissects.blank_cons`).
-/

namespace Stencil

open Text (newlines)

namespace Segment

/-- The segment on another line. -/
def moved (move : Nat → Nat) (segment : Segment) : Segment :=
  { segment with line := move segment.line }

variable (move : Nat → Nat) (segment : Segment)

@[simp] theorem kind_moved : (segment.moved move).kind = segment.kind := rfl

@[simp] theorem text_moved : (segment.moved move).text = segment.text := rfl

@[simp] theorem line_moved : (segment.moved move).line = move segment.line := rfl

@[simp] theorem heading_moved : (segment.moved move).heading = segment.heading := rfl

@[simp] theorem isBlank_moved : (segment.moved move).isBlank = segment.isBlank := rfl

theorem isBlank_iff : segment.isBlank = true ↔
    segment.kind = .text ∧ Text.isBlank segment.text = true := by
  rw [isBlank, Bool.and_eq_true, beq_iff_eq]

end Segment

@[simp] theorem segmentsText_map_moved (move : Nat → Nat) (segments : List Segment) :
    segmentsText (segments.map (Segment.moved move)) = segmentsText segments := by
  rw [segmentsText, List.flatMap_map]
  rfl

/-- No directive begins in blank text. -/
theorem noBraces_of_isBlank {cs : List Char} (h : Text.isBlank cs = true) : NoBraces cs := by
  intro hbraces
  have hwhite := List.all_eq_true.1 h '{' (hbraces.subset (by simp))
  exact absurd hwhite (by decide)

/-- Blank text has no brace at its end. -/
theorem getLast?_ne_of_isBlank {cs : List Char} (h : Text.isBlank cs = true) :
    cs.getLast? ≠ some '{' := by
  intro hlast
  have hwhite := List.all_eq_true.1 h '{' (List.mem_of_getLast? hlast)
  exact absurd hwhite (by decide)

namespace Dissects

variable {line other : Nat} {code cs ds rest : List Char} {segment : Segment}
  {segments more : List Segment}

/-- The segments behind the first ones are a dissection of what follows. -/
theorem drop (h : Dissects line code (segments ++ more) rest) :
    Dissects (line + newlines (segmentsText segments)) (segmentsText more ++ rest) more rest := by
  induction segments generalizing line code with
  | nil =>
    rw [← h.append_eq] at h
    exact h
  | cons segment segments ih =>
    rw [segmentsText_cons, Text.newlines_append, ← Nat.add_assoc]
    exact ih h.tail

/-- **The first segment of one dissection is the first one of another**, if text is still
followed by what it was followed by: by a directive, or by nothing. What is behind a directive
plays no part. -/
theorem replaceTail (h : Dissects line code (segment :: segments) rest) {rest' : List Char}
    (hmore : Dissects (other + newlines segment.text) ds more rest')
    (hcode : segment.kind = .text → ds ≠ [] → segmentsText segments ++ rest ≠ [])
    (hhead : segment.kind = .text → ∀ next ∈ more.head?, next.kind = .directive) :
    Dissects other (segment.text ++ ds) (⟨segment.kind, segment.text, other⟩ :: more) rest' := by
  refine hmore.cons (h.ne_nil segment List.mem_cons_self) ?_ (h.isFirst segment List.mem_cons_self)
  intro hkind
  refine ⟨h.noBraces segment List.mem_cons_self hkind, fun hds => ?_, hhead hkind⟩
  exact h.noJoin [] segment segments rfl hkind (hcode hkind hds)

/-- **A source that begins on another line has the same segments**, on other lines. The cut looks at
characters only. -/
theorem moved {move : Nat → Nat} (h : Dissects line code segments rest)
    (hmove : ∀ n, move (line + n) = other + n) :
    Dissects other code (segments.map (Segment.moved move)) rest := by
  induction segments generalizing line other code with
  | nil => exact ⟨h.append_eq, nofun, nofun, nofun, by simp, by simp, by simp, h.stuck⟩
  | cons segment segments ih =>
    have hline : move segment.line = other := by rw [h.line_head]; exact hmove 0
    -- the lines of the rest are moved by as much
    have htail : ∀ n, move (line + newlines segment.text + n)
        = other + newlines segment.text + n := by
      intro n
      rw [Nat.add_assoc, hmove, Nat.add_assoc]
    have hcode : code = segment.text ++ (segmentsText segments ++ rest) := by
      rw [← h.append_eq, segmentsText_cons, List.append_assoc]
    rw [hcode, List.map_cons, Segment.moved, hline]
    refine h.replaceTail (ih h.tail htail) (fun _ hne => hne) fun hkind next hnext => ?_
    -- what followed the segment before follows it still
    cases segments with
    | nil => cases hnext
    | cons following segments =>
      cases hnext
      exact h.apart [] segment following segments rfl hkind

/-- **Behind a directive any source may follow**: braces that close it leave nothing open that could
take from what comes. -/
theorem append (h : Dissects line cs segments [])
    (hmore : Dissects (line + newlines cs) ds more rest)
    (hlast : ∀ last ∈ segments.getLast?, last.kind = .directive) :
    Dissects line (cs ++ ds) (segments ++ more) rest := by
  -- on the segments of the first source, the second one standing at their end
  induction segments generalizing line cs with
  | nil =>
    obtain rfl : [] = cs := h.append_eq
    exact hmore
  | cons segment segments ih =>
    obtain rfl : segment.text ++ segmentsText segments = cs := by
      rw [← h.append_eq, segmentsText_cons, List.append_nil]
    have htail := h.tail
    rw [List.append_nil] at htail
    rw [Text.newlines_append, ← Nat.add_assoc] at hmore
    have hrest : Dissects (line + newlines segment.text) (segmentsText segments ++ ds)
        (segments ++ more) rest := by
      refine ih htail hmore fun last hmem => hlast last ?_
      rw [List.getLast?_cons, Option.mem_def.1 hmem]
      rfl
    have hsegment : segment = ⟨segment.kind, segment.text, line⟩ := by rw [← h.line_head]
    rw [List.append_assoc, List.cons_append, hsegment]
    cases segments with
    | nil =>
      -- a directive comes last
      have hkind : segment.kind = .directive := hlast segment rfl
      exact h.replaceTail hrest (by simp [hkind]) (by simp [hkind])
    -- a segment follows in the first source, so this one is followed by what it was followed by
    | cons next segments =>
      refine h.replaceTail hrest (fun _ _ => ?_) fun hkind following hfollowing => ?_
      · simp [h.ne_nil next (by simp)]
      · cases hfollowing
        exact h.apart [] segment next segments rfl hkind

/-- **Blank text before a directive** is a segment of its own, as there is no text that it could
become a part of. -/
theorem blank_cons (h : Dissects (line + newlines cs) code segments rest) (hne : cs ≠ [])
    (hblank : Text.isBlank cs = true) (hhead : ∀ first ∈ segments.head?, first.kind = .directive) :
    Dissects line (cs ++ code) (⟨.text, cs, line⟩ :: segments) rest :=
  h.cons hne (fun _ => ⟨noBraces_of_isBlank hblank, fun _ => getLast?_ne_of_isBlank hblank, hhead⟩)
    nofun

/-- **Blank text before blank text** grows together with it, so at the seam of two sources one
segment is lost, and it is a blank one. -/
theorem blank_append (h : Dissects (line + newlines cs) code (segment :: segments) rest)
    (hblank : Text.isBlank cs = true) (hsegment : segment.isBlank = true) :
    Dissects line (cs ++ code) (⟨.text, cs ++ segment.text, line⟩ :: segments) rest := by
  obtain ⟨hkind, htext⟩ := (Segment.isBlank_iff segment).1 hsegment
  have hboth : Text.isBlank (cs ++ segment.text) = true := by
    rw [Text.isBlank_append, hblank, htext]
    rfl
  have hne : cs ++ segment.text ≠ [] := by
    simp [h.ne_nil segment List.mem_cons_self]
  have htail := h.tail
  rw [Nat.add_assoc, ← Text.newlines_append] at htail
  -- the segment behind is put back with the blank text in front of it
  have hgrown := htail.blank_cons hne hboth fun next hnext => ?_
  · rwa [List.append_assoc, ← List.append_assoc segment.text, ← segmentsText_cons,
      h.append_eq] at hgrown
  · obtain ⟨after, rfl⟩ := List.head?_eq_some_iff.1 hnext
    exact h.apart [] segment next after rfl hkind

end Dissects

end Stencil
