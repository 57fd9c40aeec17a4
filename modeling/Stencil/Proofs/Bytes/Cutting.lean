import Stencil.Proofs.Bytes.Scanning
import Stencil.Proofs.Document.Errors
import Stencil.Proofs.Printing.Directive

/-!
# Cutting by bytes

A source is cut into segments with a cursor that counts bytes: what is left of the source is a slice
of it, and so is the text of each segment and the interior of each directive. A slice that
there is not makes all that depends on it nothing. It never comes to that, and the
segments are those of the splitter (`Cursor.StandsAt.cut?_eq`, `Segment.heading?_eq`).
-/

namespace Stencil

open Text (newlines)

/-- **The difference of two numbers** in order. Taking more than there is has no answer, where
machine numbers would stop or go round. -/
def minus? (n m : Nat) : Option Nat :=
  if m ≤ n then some (n - m) else none

@[simp] theorem minus?_add (n m : Nat) : minus? (n + m) m = some n := by
  rw [minus?, if_pos (Nat.le_add_left m n), Nat.add_sub_cancel]

/-! ### The cursor

The cursor is the splitter with places for its texts: instead of the rest it has the whole source
and a number of bytes, and it slices the rest off with each call. That it comes to an end is shown
on the bytes that are left, and for that no slice need be known to exist. -/

/-- **The place of the first pair of opening braces**, in bytes. Characters before it count for as
many bytes as they have. -/
def bracesAt? : List Char → Option Nat
  | [] => none
  | '{' :: '{' :: _ => some 0
  | c :: cs => (bracesAt? cs).map (c.utf8Size + ·)

/-- **A source on its way into segments**: how many of its bytes are handed out, and the line it has
come to. -/
structure Cursor where
  /-- the name of the source, for errors -/
  src : String
  /-- the whole source -/
  input : List Char
  /-- the number of bytes handed out -/
  offset : Nat
  /-- the line on which the rest begins -/
  line : Nat

namespace Cursor

/-- A source before the first cut. -/
def ofSource (src : String) (code : List Char) : Cursor :=
  ⟨src, code, 0, 1⟩

/-- What is not handed out yet. -/
def remaining? (cursor : Cursor) : Option (List Char) :=
  slice? cursor.input cursor.offset (byteLength cursor.input)

/-- Hands out some bytes of the rest as a segment. -/
def emit? (cursor : Cursor) (kind : SegmentKind) (rest : List Char) (length : Nat) :
    Option (Except SourceError Segment × Cursor) :=
  (slice? rest 0 length).map fun text =>
    (.ok ⟨kind, text, cursor.line⟩,
      { cursor with offset := cursor.offset + length, line := cursor.line + newlines text })

/-- **The next segment**, with the cursor behind it. The outer answer is missing only if a slice is,
and the inner one at the end of the source. -/
def next? (cursor : Cursor) : Option (Option (Except SourceError Segment × Cursor)) :=
  cursor.remaining?.bind fun rest =>
    if rest.isEmpty then some none
    else
      match bracesAt? rest with
      | some 0 =>
        match directiveEnd (utf8 rest) 2 with
        | some length => (cursor.emit? .directive rest length).map some
        | none =>
          some (some (.error (.unterminatedDirective ⟨cursor.src, cursor.line⟩),
            { cursor with offset := byteLength cursor.input }))
      | some place => (cursor.emit? .text rest place).map some
      | none => (cursor.emit? .text rest (byteLength rest)).map some

/-- Handing out moves the cursor on, and not beyond the end. -/
theorem lt_of_emit? {cursor next : Cursor} {kind : SegmentKind} {rest : List Char} {length : Nat}
    {result : Except SourceError Segment} (hrest : cursor.remaining? = some rest)
    (hlength : 0 < length) (h : cursor.emit? kind rest length = some (result, next)) :
    byteLength next.input - next.offset < byteLength cursor.input - cursor.offset := by
  obtain ⟨text, htext, hnext⟩ := Option.map_eq_some_iff.1 h
  have hbytes := add_byteLength_of_slice? hrest
  have hle := le_of_slice? htext
  cases hnext
  dsimp only
  omega

/-- A directive ends behind where one is inside it. -/
theorem lt_of_directiveEnd {bytes : List UInt8} {i stop : Nat}
    (h : directiveEnd bytes i = some stop) : i < stop := by
  fun_induction directiveEnd bytes i with
  | case1 => cases h; omega
  | case2 => cases h
  | case3 i hlt hbraces hquote between hquoted hbetween ih => exact Nat.lt_trans (by omega) (ih h)
  | case4 i hlt hbraces hquote ih => exact Nat.lt_trans (Nat.lt_succ_self i) (ih h)
  | case5 => cases h

/-- Every segment moves the cursor on. -/
theorem lt_of_next? {cursor next : Cursor} {segment : Segment}
    (h : cursor.next? = some (some (.ok segment, next))) :
    byteLength next.input - next.offset < byteLength cursor.input - cursor.offset := by
  obtain ⟨rest, hrest, h⟩ := Option.bind_eq_some_iff.1 h
  split at h
  · cases h
  next hne =>
  -- whichever way a segment was emitted, it was not empty
  have emitted {kind : SegmentKind} {length : Nat} (hlength : 0 < length)
      (h : (cursor.emit? kind rest length).map some = some (some (.ok segment, next))) :
      byteLength next.input - next.offset < byteLength cursor.input - cursor.offset := by
    obtain ⟨handed, hhanded, heq⟩ := Option.map_eq_some_iff.1 h
    cases heq
    exact lt_of_emit? hrest hlength hhanded
  split at h
  · split at h
    · next length hend => exact emitted (Nat.lt_trans (by decide) (lt_of_directiveEnd hend)) h
    · cases h
  · next hplace _ => exact emitted (Nat.pos_of_ne_zero hplace) h
  · exact emitted (byteLength_pos (by simpa using hne)) h

/-- **All segments**, with the cursor behind the last of them, or the error that ends them. An error
is an answer too; only a slice that there is not leaves this without one. -/
def cut? (cursor : Cursor) : Option (Except SourceError (List Segment × Cursor)) :=
  match h : cursor.next? with
  | none => none
  | some none => some (.ok ([], cursor))
  | some (some (.error e, _)) => some (.error e)
  | some (some (.ok segment, next)) =>
    have := lt_of_next? h
    next.cut?.map (·.map fun (segments, last) => (segment :: segments, last))
termination_by byteLength cursor.input - cursor.offset

end Cursor

/-! ### Cursor and splitter

Cursor and splitter are two state machines for one thing. `StandsAt` relates their states; it holds
at the beginning and is kept by every call (`alike_or_end`), which also answer alike, so it holds at
the end of the whole source too (`cut?_eq`). -/

namespace Cursor

variable {cursor next : Cursor}

theorem cut?_of_end (h : cursor.next? = some none) : cursor.cut? = some (.ok ([], cursor)) := by
  rw [cut?]
  split <;> simp_all

theorem cut?_of_error {e : SourceError} (h : cursor.next? = some (some (.error e, next))) :
    cursor.cut? = some (.error e) := by
  rw [cut?]
  split <;> simp_all

theorem cut?_of_segment {segment : Segment}
    (h : cursor.next? = some (some (.ok segment, next))) :
    cursor.cut? = next.cut?.map (·.map fun found => (segment :: found.1, found.2)) := by
  rw [cut?]
  split <;> simp_all

end Cursor

/-- The first braces stand behind the text up to them. -/
theorem bracesAt?_eq (cs : List Char) :
    bracesAt? cs = if (spanText cs).2 = [] then none else some (byteLength (spanText cs).1) := by
  fun_induction spanText cs with
  | case1 => rfl
  | case2 cs => rfl
  -- one character more in front of the place in the rest
  | case3 c cs hbraces text rest hspan ih =>
    rw [hspan] at ih
    rw [bracesAt?, ih]
    · split <;> rfl
    · exact hbraces

/-- **A cursor stands where a splitter does**: the bytes handed out are those of what the splitter
has cut off. -/
structure Cursor.StandsAt (cursor : Cursor) (s : Splitter) : Prop where
  /-- the same source -/
  src_eq : cursor.src = s.src
  /-- the same line -/
  line_eq : cursor.line = s.line
  /-- the same rest -/
  input_eq : ∃ before, before ++ s.rest = cursor.input ∧ byteLength before = cursor.offset

namespace Cursor.StandsAt

variable {cursor : Cursor} {s : Splitter}

theorem ofSource (src : String) (code : List Char) :
    (Cursor.ofSource src code).StandsAt (Splitter.ofSource src code) :=
  ⟨rfl, rfl, [], rfl, rfl⟩

/-- What is left of the source is a slice of it. -/
theorem remaining?_eq (h : cursor.StandsAt s) : cursor.remaining? = some s.rest := by
  obtain ⟨before, hinput, hoffset⟩ := h.input_eq
  rw [remaining?, ← hinput, ← hoffset, slice?_suffix]

/-- **What is handed out is a slice of that**, and the cursor stands behind it. -/
theorem exists_emit?_eq (h : cursor.StandsAt s) (kind : SegmentKind) {text rest : List Char}
    (hrest : text ++ rest = s.rest) :
    ∃ next, cursor.emit? kind s.rest (byteLength text) = some ((s.emit kind text rest).1, next) ∧
      next.StandsAt (s.emit kind text rest).2 := by
  obtain ⟨before, hinput, hoffset⟩ := h.input_eq
  -- the offset grows by the bytes of the text and the line by its line feeds
  refine ⟨⟨cursor.src, cursor.input, cursor.offset + byteLength text, s.line + newlines text⟩, ?_,
    ⟨h.src_eq, rfl, before ++ text, ?_, ?_⟩⟩
  · rw [emit?, ← hrest, slice?_prefix, Option.map_some, h.line_eq]
    rfl
  · rw [List.append_assoc, ← hinput, ← hrest]
    rfl
  · rw [byteLength_append, hoffset]

/-- **A cursor and a splitter go on alike**: to the same segment or error, and to the same place.
The answer of the cursor is there, so none of its slices was missing. -/
def Alike (cursor : Cursor) (s : Splitter) : Prop :=
  ∃ result next t, cursor.next? = some (some (result, next)) ∧ s.next? = some (result, t) ∧
    next.StandsAt t

/-- Where braces are open, both hand out the directive or find that it does not end. -/
theorem alike_directive (h : cursor.StandsAt s) {cs : List Char}
    (hrest : s.rest = '{' :: '{' :: cs) : Alike cursor s := by
  have hspan : spanText s.rest = ([], s.rest) := by
    rw [hrest]
    rfl
  have hend : directiveEnd (utf8 s.rest) 2
      = (spanDirective none cs).map fun found => 2 + byteLength found.1 := by
    rw [hrest]
    exact directiveEnd_of_drop_eq_utf8 rfl
  have hnil : s.rest ≠ [] := by simp [hrest]
  rw [Alike, next?, h.remaining?_eq, Option.bind_some, if_neg (by simpa using hnil), bracesAt?_eq,
    hspan, if_neg hnil, hend]
  dsimp only [byteLength_nil]
  -- neither finds an end, or both find the same
  cases hfound : spanDirective none cs with
  | none =>
    refine ⟨_, _, { s with rest := [] }, rfl, ?_,
      ⟨h.src_eq, h.line_eq, cursor.input, List.append_nil _, rfl⟩⟩
    simp only [Splitter.next?, hrest, hfound, h.src_eq, h.line_eq]
  | some found =>
    obtain ⟨inside, after⟩ := found
    have happend : '{' :: '{' :: inside ++ after = s.rest := by
      rw [hrest, ← append_of_spanDirective hfound]
      rfl
    obtain ⟨next, hemit, hstands⟩ := h.exists_emit?_eq .directive happend
    have hlength : byteLength ('{' :: '{' :: inside) = 2 + byteLength inside := by
      rw [byteLength_cons, byteLength_cons, ← Nat.add_assoc]
      rfl
    rw [hlength] at hemit
    refine ⟨_, next, _, congrArg (Option.map some) hemit, ?_, hstands⟩
    simp only [Splitter.next?, hrest, hfound]

/-- Elsewhere both hand out the text up to the next braces, or to the end of the source. -/
theorem alike_text (h : cursor.StandsAt s) (hnil : s.rest ≠ [])
    (hopen : ∀ cs, s.rest ≠ '{' :: '{' :: cs) : Alike cursor s := by
  obtain ⟨next, hemit, hstands⟩ := h.exists_emit?_eq .text (append_spanText s.rest)
  have hcut : s.next? = some (s.emit .text (spanText s.rest).1 (spanText s.rest).2) := by
    rw [Splitter.next?]
    split
    · next hrest => exact absurd hrest hnil
    · next cs hrest => exact absurd hrest (hopen cs)
    · rfl
  refine ⟨_, next, _, ?_, hcut, hstands⟩
  rw [next?, h.remaining?_eq, Option.bind_some, if_neg (by simpa using hnil), bracesAt?_eq]
  -- the text goes to the end of the source, or up to the next braces
  by_cases hend : (spanText s.rest).2 = []
  · have hall := append_spanText s.rest
    rw [hend, List.append_nil] at hall
    rw [hall] at hemit
    rw [if_pos hend, hall]
    exact congrArg (Option.map some) hemit
  · have hplace := byteLength_pos (spanText_ne_nil hnil hopen)
    obtain ⟨place, hsucc⟩ := Nat.exists_eq_succ_of_ne_zero (Nat.ne_of_gt hplace)
    rw [hsucc] at hemit
    rw [if_neg hend, hsucc]
    exact congrArg (Option.map some) hemit

/-- **The cursor hands out what the splitter does**, and at the end nothing. It is one step; all
segments follow by going on from the place that both have come to. -/
theorem alike_or_end (h : cursor.StandsAt s) :
    (cursor.next? = some none ∧ s.next? = none) ∨ Alike cursor s := by
  by_cases hnil : s.rest = []
  · refine .inl ⟨?_, by rw [Splitter.next?, hnil]⟩
    rw [next?, h.remaining?_eq, hnil]
    rfl
  by_cases hopen : ∃ cs, s.rest = '{' :: '{' :: cs
  · obtain ⟨cs, hrest⟩ := hopen
    exact .inr (h.alike_directive hrest)
  · exact .inr (h.alike_text hnil fun cs hrest => hopen ⟨cs, hrest⟩)

/-- **The cursor cuts a source as the splitter does**: into the same segments, and at the end of the
source both stand in the same place; or both fail alike. -/
theorem cut?_eq (h : cursor.StandsAt s) :
    (∃ e, cursor.cut? = some (.error e) ∧ s.cut = .error e) ∨
      ∃ segments last t, cursor.cut? = some (.ok (segments, last)) ∧ s.cut = .ok (segments, t) ∧
        last.StandsAt t := by
  -- on what is left of the source, as each segment leaves less of it
  induction hlength : s.rest.length using Nat.strongRecOn generalizing cursor s with
  | ind n ih =>
    subst hlength
    rcases h.alike_or_end with ⟨hnext, hend⟩ | ⟨result, next, t, hnext, hcut, hstands⟩
    · exact .inr ⟨[], cursor, s, cut?_of_end hnext, Splitter.cut_of_next?_none hend, h⟩
    cases result with
    | error e => exact .inl ⟨e, cut?_of_error hnext, Splitter.cut_of_next?_error hcut⟩
    | ok segment =>
      -- both go on from where they stand behind the segment
      rw [cut?_of_segment hnext, Splitter.cut_of_next? hcut]
      rcases ih t.rest.length (Splitter.length_lt_of_next? hcut) hstands rfl with
        ⟨e, hcursor, hsplitter⟩ | ⟨segments, last, end', hcursor, hsplitter, hlast⟩
      · rw [hcursor, hsplitter]
        exact .inl ⟨e, rfl, rfl⟩
      · rw [hcursor, hsplitter]
        exact .inr ⟨segment :: segments, last, end', rfl, rfl, hlast⟩

end Cursor.StandsAt

/-- **Cuts a source into segments**, with all its slices. The line of its end is where the cursor
has come to. -/
def Segmentation.ofSource? (src : String) (code : List Char) :
    Option (Except SourceError Segmentation) :=
  (Cursor.ofSource src code).cut?.map fun result =>
    result.map fun (segments, last) => ⟨dropTrailingBlank segments, last.line⟩

/-- **Sources are cut by bytes as they are by characters**: to the same segments, and with the same
line at the end. -/
@[simp] theorem Segmentation.ofSource?_eq (src : String) (code : List Char) :
    Segmentation.ofSource? src code = some (Segmentation.ofSource src code) := by
  rw [Segmentation.ofSource?, Segmentation.ofSource]
  rcases (Cursor.StandsAt.ofSource src code).cut?_eq with
    ⟨e, hcursor, hsplitter⟩ | ⟨segments, last, t, hcursor, hsplitter, hlast⟩
  · rw [hcursor, hsplitter]
    rfl
  · rw [hcursor, hsplitter]
    simp only [Option.map_some, Except.map, hlast.line_eq]

/-! ### Interiors

The interior of a directive is sliced off between two places that are two bytes from its ends. For a
text that is no complete directive there need be no such slice, so this asks for one. -/

namespace Segment

/-- **The interior** of a segment, which is a slice of a directive, from behind its first two bytes
up to its last two. -/
def interior? (segment : Segment) : Option (List Char) :=
  match segment.kind with
  | .text => some segment.text
  | .directive => (minus? (byteLength segment.text) 2).bind (slice? segment.text 2)

/-- **What a segment announces**, with its slice. -/
def heading? (segment : Segment) : Option Heading :=
  match segment.kind with
  | .text => some (.text segment.text)
  | .directive => segment.interior?.map Heading.ofInterior

/-- What stands between the braces of a directive is a slice of it. -/
theorem interior?_directive (inner : List Char) (line : Nat) :
    (Segment.mk .directive (Node.directive inner) line).interior? = some inner := by
  have hsplit : Node.directive inner = ['{', '{'] ++ (inner ++ ['}', '}']) := rfl
  have hlength : byteLength (Node.directive inner) = byteLength (['{', '{'] ++ inner) + 2 := by
    rw [hsplit, ← List.append_assoc, byteLength_append]
    rfl
  rw [interior?]
  dsimp only
  rw [hlength, minus?_add, Option.bind_some, hsplit]
  exact slice?_append ['{', '{'] inner ['}', '}']

/-- **What a complete directive announces is told from a slice.** In one that is not complete the
four braces might overlap, and there would be no slice between them. -/
theorem heading?_eq {segment : Segment}
    (h : segment.kind = .directive → IsDirective segment.text) :
    segment.heading? = some segment.heading := by
  obtain ⟨kind, text, line⟩ := segment
  cases kind with
  | text => rfl
  | directive =>
    obtain ⟨inner, -, rfl⟩ : IsDirective text := h rfl
    rw [heading?, heading_directive]
    dsimp only
    rw [interior?_directive, Option.map_some]

end Segment

end Stencil
