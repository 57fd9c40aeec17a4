import Stencil.Node.Source
import Stencil.Segment.Splitter

/-!
# Where a source is cut

A directive ends where it seems to if its interior is `Closed`: no closing braces stand in it
outside literals, and all its literals end. Text ends where the next directive begins, if no brace
at its end joins those of the directive. For text that ends with a brace the cut comes one character
too early (`exists_cuts_brace`).
-/

namespace Stencil

open Text (Literal.write Literal.span)

/-- **An interior that a directive can be closed after**: it holds no closing braces outside
literals, and ends outside all literals. The search for closing braces goes over it and on. -/
def Closed (cs : List Char) : Prop :=
  ∀ rest, spanDirective none (cs ++ rest)
    = (spanDirective none rest).map fun (inside, after) => (cs ++ inside, after)

theorem closed_nil : Closed [] := fun _ => Option.map_id'.symm

/-- Closed interiors one after the other are closed. So whatever is printed into a directive is
closed as soon as each of its parts is. -/
theorem Closed.append {cs ds : List Char} (hc : Closed cs) (hd : Closed ds) :
    Closed (cs ++ ds) := by
  intro rest
  rw [List.append_assoc, hc, hd, Option.map_map]
  simp only [Function.comp_def, List.append_assoc]

/-- Outside literals the search for closing braces goes on behind a character, unless it is the
first of them. -/
theorem spanDirective_none_cons {c : Char} {cs : List Char}
    (h : ¬ (c = '}' ∧ cs.head? = some '}')) :
    spanDirective none (c :: cs)
      = (spanDirective (quoteOpened c) cs).map fun found => (c :: found.1, found.2) := by
  rw [spanDirective]
  rintro ds rfl rfl
  exact h ⟨rfl, rfl⟩

/-- A character that opens no literal and is no closing brace belongs to the interior. -/
theorem closed_singleton {c : Char} (hquote : Text.Literal.isQuote c = false) (hbrace : c ≠ '}') :
    Closed [c] := by
  intro rest
  rw [List.singleton_append, spanDirective_none_cons fun hboth => hbrace hboth.1, quoteOpened,
    if_neg (by simp [hquote])]
  rfl

/-- Characters that neither open literals nor are closing braces make a closed interior. -/
theorem closed_of_forall {cs : List Char}
    (h : ∀ c ∈ cs, Text.Literal.isQuote c = false ∧ c ≠ '}') : Closed cs := by
  induction cs with
  | nil => exact closed_nil
  | cons c cs ih =>
    obtain ⟨⟨hquote, hbrace⟩, hcs⟩ := List.forall_mem_cons.1 h
    exact (closed_singleton hquote hbrace).append (ih hcs)

/-- Inside a literal the search for closing braces goes to the end of the literal: it and
`Literal.span` make the same difference between backslashes, quotes and other characters. -/
theorem spanDirective_of_span {q : Char} {cs literal rest : List Char} (hq : q ≠ '\\')
    (h : Literal.span q cs = some (literal, rest)) :
    spanDirective (some q) cs
      = (spanDirective none rest).map fun (inside, after) => (literal ++ inside, after) := by
  -- along the scanner of the literal, whose cases are those of the search while a quote is open
  fun_induction Literal.span q cs generalizing literal rest with
  | case1 => cases h
  | case2 => cases h
  | case3 c cs ih =>
    simp only [Option.map_eq_some_iff, Prod.mk.injEq] at h
    obtain ⟨⟨l, r⟩, hs, rfl, rfl⟩ := h
    rw [spanDirective, ih hs, Option.map_map]
    rfl
  -- the closing quote: from here on the search is outside
  | case4 cs =>
    cases h
    rw [spanDirective, quoteLeft, if_pos rfl]
    · rfl
    all_goals simp_all
  | case5 c cs hnil hcons hne ih =>
    simp only [Option.map_eq_some_iff, Prod.mk.injEq] at h
    obtain ⟨⟨l, r⟩, hs, rfl, rfl⟩ := h
    rw [spanDirective, quoteLeft, if_neg hne, ih hs, Option.map_map]
    · rfl
    all_goals simp_all

/-- Inside a literal that does not end there are no closing braces to be found. -/
theorem spanDirective_of_span_eq_none {q : Char} {cs : List Char}
    (h : Literal.span q cs = none) : spanDirective (some q) cs = none := by
  fun_induction Literal.span q cs with
  | case1 => rfl
  | case2 => rfl
  | case3 c cs ih => rw [spanDirective, ih (Option.map_eq_none_iff.1 h), Option.map_none]
  | case4 => cases h
  | case5 c cs hnil hcons hne ih =>
    rw [spanDirective, quoteLeft, if_neg hne, ih (Option.map_eq_none_iff.1 h), Option.map_none]
    all_goals simp_all

/-- **A quote outside literals** opens one, and the search goes on behind it, with no literal open
again. -/
theorem spanDirective_none_quote {q : Char} (hq : Text.Literal.isQuote q = true)
    (cs : List Char) :
    spanDirective none (q :: cs)
      = (Literal.span q cs).bind fun literal =>
          (spanDirective none literal.2).map fun found =>
            (q :: (literal.1 ++ found.1), found.2) := by
  have hbackslash : q ≠ '\\' := by
    rintro rfl
    cases hq
  have hbrace : q ≠ '}' := by
    rintro rfl
    cases hq
  rw [spanDirective_none_cons fun hboth => hbrace hboth.1, quoteOpened, if_pos hq]
  cases hspan : Literal.span q cs with
  | none =>
    rw [spanDirective_of_span_eq_none hspan]
    rfl
  | some literal =>
    rw [spanDirective_of_span hbackslash hspan, Option.bind_some, Option.map_map]
    rfl

/-- A written literal is closed, whatever characters it was written from. -/
theorem closed_write (cs : List Char) : Closed (Literal.write cs) := by
  intro rest
  -- only the first quote is read outside a literal, the rest is one whole span
  have hcons : Literal.write cs = '"' :: (Literal.write cs).tail := rfl
  rw [hcons, List.cons_append, spanDirective, show quoteOpened '"' = some '"' from rfl,
    spanDirective_of_span (by decide) (Text.Literal.span_write cs rest), Option.map_map]
  · rfl
  · simp

namespace Splitter

variable {src : String} {line : Nat}

/-- A source at its end is cut already. -/
theorem cut_of_next?_none {s : Splitter} (h : s.next? = none) : s.cut = .ok ([], s) := by
  rw [cut]
  split
  · rfl
  · next herror => simp [h] at herror
  · next hsome => simp [h] at hsome

/-- An error ends the cutting. -/
theorem cut_of_next?_error {s t : Splitter} {e : SourceError}
    (h : s.next? = some (.error e, t)) : s.cut = .error e := by
  rw [cut]
  split
  · next hnone => simp [h] at hnone
  · next herror =>
    rw [h] at herror
    cases herror
    rfl
  · next hsome => simp [h] at hsome

/-- A source is cut into the next segment and what the rest is cut into; the splitter at the end is
that of the rest. -/
theorem cut_of_next? {s t : Splitter} {segment : Segment}
    (h : s.next? = some (.ok segment, t)) :
    s.cut = t.cut.map fun found => (segment :: found.1, found.2) := by
  rw [cut]
  split
  · next hnone => simp [h] at hnone
  · next herror => simp [h] at herror
  · next hsome =>
    rw [h] at hsome
    cases hsome
    rfl

/-- The segments of a source are the next one and those of what is left. -/
theorem segments_of_next? {s t : Splitter} {segment : Segment}
    (h : s.next? = some (.ok segment, t)) : s.segments = t.segments.map (segment :: ·) := by
  rw [segments, segments, cut_of_next? h]
  cases t.cut <;> rfl

theorem segments_of_next?_none {s : Splitter} (h : s.next? = none) : s.segments = .ok [] := by
  rw [segments, cut_of_next?_none h]
  rfl

/-- A source that cannot be cut has no segments. -/
theorem segments_of_next?_error {s t : Splitter} {e : SourceError}
    (h : s.next? = some (.error e, t)) : s.segments = .error e := by
  rw [segments, cut_of_next?_error h]
  rfl

theorem segments_nil : (Splitter.mk src [] line).segments = .ok [] :=
  segments_of_next?_none rfl

/-- **Behind the last segment nothing is left**, and the splitter has counted all lines of the
source: each call counts those of what it hands out. -/
theorem last_of_cut {s last : Splitter} {segments : List Segment}
    (h : s.cut = .ok (segments, last)) :
    last = ⟨s.src, [], s.line + Text.newlines s.rest⟩ := by
  -- on what is left, since `cut` goes on behind the segment it was handed and that is shorter
  induction hlength : s.rest.length using Nat.strongRecOn generalizing s segments with
  | ind n ih =>
    subst hlength
    rcases s.next?_cases with ⟨hrest, hnone⟩ | ⟨kind, text, rest, -, happend, hsome⟩ | ⟨-, herror⟩
    · rw [cut_of_next?_none hnone] at h
      cases h
      rw [hrest, Text.newlines_nil, Nat.add_zero, ← hrest]
    · have hlt := length_lt_of_next? hsome
      rw [cut_of_next? hsome] at h
      dsimp only [emit] at h hlt
      cases hcut : (Splitter.mk s.src rest (s.line + Text.newlines text)).cut with
      | error e =>
        rw [hcut] at h
        cases h
      | ok found =>
        rw [hcut] at h
        cases h
        rw [ih _ hlt hcut rfl, ← happend, Text.newlines_append, ← Nat.add_assoc]
    -- an error ends the cutting, so there is no last splitter to speak of
    · rw [cut_of_next?_error herror] at h
      cases h

end Splitter

/-- **A source ends on the line that its line feeds make it come to.** The line is counted segment
by segment while the source is cut; here it comes out that no line feed was missed. -/
theorem Segmentation.ofSource_eq (src : String) (code : List Char) :
    Segmentation.ofSource src code = (Splitter.ofSource src code).segments.map fun segments =>
      ⟨dropTrailingBlank segments, 1 + Text.newlines code⟩ := by
  rw [Segmentation.ofSource, Splitter.segments]
  cases hcut : (Splitter.ofSource src code).cut with
  | error e => rfl
  | ok found =>
    obtain ⟨segments, last⟩ := found
    simp only [Except.map, Splitter.last_of_cut hcut]
    rfl

/-! ### Text

`spanText` stops at the first pair of opening braces, and it looks at two characters only. So what
it cuts off is told apart from what follows by two conditions: no pair stands in it (`NoBraces`),
and no single brace stands at its end, where it would make a pair with the first brace of what
follows. -/

/-- **Text in which no directive begins**: no pair of opening braces stands in it. A single one may,
also at the end. -/
def NoBraces (cs : List Char) : Prop :=
  ¬ ['{', '{'] <:+: cs

theorem noBraces_nil : NoBraces [] := by
  rintro ⟨before, after, h⟩
  simp at h

theorem noBraces_cons_iff {c : Char} {cs : List Char} :
    NoBraces (c :: cs) ↔ (∀ ds, c = '{' → cs ≠ '{' :: ds) ∧ NoBraces cs := by
  simp only [NoBraces, List.infix_cons_iff, not_or, and_congr_left_iff]
  intro _
  constructor
  · rintro h ds rfl rfl
    exact h ⟨ds, rfl⟩
  · rintro h ⟨ds, hds⟩
    cases hds
    exact h ds rfl rfl

/-- Text without braces that goes on with a brace has none at its end. -/
theorem of_noBraces_append_singleton {cs : List Char} (h : NoBraces (cs ++ ['{'])) :
    NoBraces cs ∧ cs.getLast? ≠ some '{' := by
  constructor
  · intro hcs
    exact h (hcs.trans (List.prefix_append cs _).isInfix)
  · intro hlast
    obtain ⟨init, rfl⟩ := List.getLast?_eq_some_iff.1 hlast
    exact h ⟨init, [], by simp⟩

/-- Text before a character that is not cut off is cut as it is. -/
theorem spanText_cons {c : Char} {cs : List Char} (h : ∀ ds, c = '{' → cs ≠ '{' :: ds) :
    spanText (c :: cs) = (c :: (spanText cs).1, (spanText cs).2) := by
  rw [spanText]
  rintro ds rfl rfl
  exact h ds rfl rfl

/-- **Text is cut where the next directive begins**, if it has no braces before that: neither a pair
of them nor one at its end. -/
theorem spanText_append {cs : List Char} (hbraces : NoBraces cs)
    (hlast : cs.getLast? ≠ some '{') (rest : List Char) :
    spanText (cs ++ '{' :: '{' :: rest) = (cs, '{' :: '{' :: rest) := by
  induction cs with
  | nil => rfl
  | cons c cs ih =>
    obtain ⟨hhead, htail⟩ := noBraces_cons_iff.1 hbraces
    -- the pair that a cut would need lies within the text, or its second brace is the directive's
    -- first
    have hopen : ∀ ds, c = '{' → cs ++ '{' :: '{' :: rest ≠ '{' :: ds := by
      rintro ds rfl hds
      cases cs with
      | nil => exact hlast rfl
      | cons d cs =>
        obtain ⟨rfl, -⟩ := List.cons.inj hds
        exact hhead cs rfl rfl
    have hlast' : cs.getLast? ≠ some '{' := by
      intro hcs
      rw [List.getLast?_cons, hcs] at hlast
      exact hlast rfl
    rw [List.cons_append, spanText_cons hopen, ih htail hlast']

/-- Text that is cut off has no directive in it, and what is left begins with one or is nothing.
Together with `append_spanText` this says what `spanText` does, without saying how. -/
theorem noBraces_spanText (cs : List Char) :
    NoBraces (spanText cs).1 ∧
      ((spanText cs).2 = [] ∨ ∃ rest, (spanText cs).2 = '{' :: '{' :: rest) := by
  fun_induction spanText cs with
  | case1 => exact ⟨noBraces_nil, .inl rfl⟩
  | case2 cs => exact ⟨noBraces_nil, .inr ⟨cs, rfl⟩⟩
  | case3 c cs hopen text rest hspan ih =>
    rw [hspan] at ih
    refine ⟨noBraces_cons_iff.2 ⟨?_, ih.1⟩, ih.2⟩
    rintro ds hc rfl
    have hcs : '{' :: ds ++ rest = cs := by simpa [hspan] using append_spanText cs
    exact hopen (ds ++ rest) hc hcs.symm

/-! ### Pieces of a source

The segments of a source are found from the front, so those of a piece depend on what follows the
piece, but only through the place where it ends. `Cuts` says that they do not depend on more: it is
proved of directives and of text alone and is closed under appending, so a printed source is cut
piece by piece. -/

/-- **A piece of a source is cut into some segments**, on its own lines, if it is so before what
follows it: the segments of the whole are those and the segments of what follows. -/
def Cuts (src : String) (line : Nat) (cs : List Char) (segments : List Segment) (line' : Nat)
    (rest : List Char) : Prop :=
  (Splitter.mk src (cs ++ rest) line).segments
    = (Splitter.mk src rest line').segments.map (segments ++ ·)

variable {src : String} {line line₁ line₂ : Nat} {cs ds rest inner : List Char}
  {segments others : List Segment}

theorem Cuts.nil : Cuts src line [] [] line rest := by
  rw [Cuts, List.nil_append]
  cases (Splitter.mk src rest line).segments <;> rfl

/-- Pieces one after the other are cut one after the other. -/
theorem Cuts.append (hc : Cuts src line cs segments line₁ (ds ++ rest))
    (hd : Cuts src line₁ ds others line₂ rest) :
    Cuts src line (cs ++ ds) (segments ++ others) line₂ rest := by
  rw [Cuts] at hc hd ⊢
  rw [List.append_assoc, hc, hd]
  cases (Splitter.mk src rest line₂).segments with
  | error e => rfl
  | ok more => exact congrArg Except.ok (List.append_assoc ..).symm

/-- **A directive with a closed interior is one segment**, whatever follows it, on the line that the
splitter has come to. -/
theorem cuts_directive (h : Closed inner) :
    Cuts src line (Node.directive inner) [⟨.directive, Node.directive inner, line⟩]
      (line + Text.newlines (Node.directive inner)) rest := by
  refine Splitter.segments_of_next? ?_
  have hspan : spanDirective none (inner ++ ('}' :: '}' :: rest))
      = some (inner ++ ['}', '}'], rest) := h _
  have hsource : Node.directive inner ++ rest = '{' :: '{' :: (inner ++ ('}' :: '}' :: rest)) := by
    simp [Node.directive]
  simp only [Splitter.next?, hsource, hspan, Splitter.emit]
  simp [Node.directive]

/-- **Text before a directive is one segment**, if no braces stand in it or at its end. A brace at
the end would be the first of the directive. -/
theorem cuts_text (hne : cs ≠ []) (hbraces : NoBraces cs) (hlast : cs.getLast? ≠ some '{') :
    Cuts src line cs [⟨.text, cs, line⟩] (line + Text.newlines cs)
      (Node.directive inner ++ rest) := by
  have hopen : Node.directive inner ++ rest = '{' :: '{' :: (inner ++ ['}', '}'] ++ rest) := by
    simp [Node.directive]
  have hspan := spanText_append hbraces hlast (inner ++ ['}', '}'] ++ rest)
  rw [hopen]
  refine Splitter.segments_of_next? ?_
  -- of the three ways a source may begin, text excludes the end and the pair of braces
  rw [Splitter.next?]
  split
  · next hnil => simp at hnil
  · next ds hds =>
    rw [show cs ++ '{' :: '{' :: (inner ++ ['}', '}'] ++ rest) = '{' :: '{' :: ds from hds] at hspan
    exact absurd (Prod.mk.inj hspan).1.symm hne
  · simp only [hspan, Splitter.emit]

/-- **A brace at the end of text joins those of the directive behind it**: the text is cut before
that brace, and the interior begins with one. This is the only way in which a printed text is not
cut as it was printed. -/
theorem exists_cuts_brace (hbraces : NoBraces (cs ++ ['{'])) (hinner : Closed inner) :
    ∃ before line₁ line₂, Cuts src line (cs ++ ['{'] ++ Node.directive inner)
      (before ++ [⟨.directive, Node.directive ('{' :: inner), line₁⟩]) line₂ rest := by
  have hclosed : Closed ('{' :: inner) := (closed_singleton rfl (by decide)).append hinner
  have hjoin : ['{'] ++ Node.directive inner = Node.directive ('{' :: inner) := by
    simp [Node.directive]
  obtain ⟨hcs, hlast⟩ := of_noBraces_append_singleton hbraces
  rw [List.append_assoc, hjoin]
  -- without other text there is no segment in front of the directive at all
  cases cs with
  | nil => exact ⟨[], line, _, cuts_directive hclosed⟩
  | cons c cs =>
    exact ⟨[⟨.text, c :: cs, line⟩], line + Text.newlines (c :: cs), _,
      (cuts_text (List.cons_ne_nil c cs) hcs hlast).append (cuts_directive hclosed)⟩

end Stencil
