import Stencil.Proofs.Segment.Directive

/-!
# Dissected sources

How a source falls into segments, said without a splitter (`Dissects`): text and complete
directives, with nothing between them and nothing lost, each on its line, up to the end of the
source or to a directive that is never complete. Every source can be dissected, and in one way only.
The splitter hands out exactly those segments, then the error if something is left, and then
nothing, however often it is asked (`Dissects.answer?_eq`).
-/

namespace Stencil

open Text (newlines)

@[simp] theorem segmentsText_nil : segmentsText [] = [] := rfl

@[simp] theorem segmentsText_cons (segment : Segment) (segments : List Segment) :
    segmentsText (segment :: segments) = segment.text ++ segmentsText segments := rfl

@[simp] theorem segmentsText_append (segments others : List Segment) :
    segmentsText (segments ++ others) = segmentsText segments ++ segmentsText others :=
  List.flatMap_append

/-- **A source that begins on a line falls into segments and a rest.** Nothing is said of a search:
each condition can be checked on the segments alone, so it tells what a right answer is without
telling how one is found. -/
structure Dissects (line : Nat) (code : List Char) (segments : List Segment) (rest : List Char) :
    Prop where
  /-- nothing is lost -/
  append_eq : segmentsText segments ++ rest = code
  /-- no segment is empty -/
  ne_nil : ∀ segment ∈ segments, segment.text ≠ []
  /-- no directive begins in text -/
  noBraces : ∀ segment ∈ segments, segment.kind = .text → NoBraces segment.text
  /-- a directive ends where it is complete for the first time -/
  isFirst : ∀ segment ∈ segments, segment.kind = .directive → IsFirstDirective segment.text
  /-- no text follows text -/
  apart : ∀ before segment next after, segments = before ++ segment :: next :: after →
    segment.kind = .text → next.kind = .directive
  /-- no brace at the end of text joins those of what follows -/
  noJoin : ∀ before segment after, segments = before ++ segment :: after →
    segment.kind = .text → segmentsText after ++ rest ≠ [] → segment.text.getLast? ≠ some '{'
  /-- a segment is on the line that the text before it has come to -/
  line_eq : ∀ before segment after, segments = before ++ segment :: after →
    segment.line = line + newlines (segmentsText before)
  /-- the rest is nothing, or a directive begins there and is never complete -/
  stuck : rest ≠ [] → (∃ cs, rest = '{' :: '{' :: cs) ∧
    ∀ before, before <+: rest → ¬ IsDirective before

/-! ### Segment by segment

A dissection is built and taken apart at its front, as the splitter does it: `Dissects.cons` puts a
segment before what follows it, `Dissects.tail` takes it off again. Inductions over segments go
through these two and do not open the eight conditions. -/

namespace Dissects

variable {line : Nat} {code rest text : List Char} {segment : Segment}
  {segments more : List Segment}

/-- The end of a source. -/
theorem nil : Dissects line [] [] [] where
  append_eq := rfl
  ne_nil := nofun
  noBraces := nofun
  isFirst := nofun
  apart := by simp
  noJoin := by simp
  line_eq := by simp
  stuck := fun h => absurd rfl h

/-- A directive that is never complete. -/
theorem unterminated {cs : List Char}
    (h : ∀ before, before <+: '{' :: '{' :: cs → ¬ IsDirective before) :
    Dissects line ('{' :: '{' :: cs) [] ('{' :: '{' :: cs) where
  append_eq := rfl
  ne_nil := nofun
  noBraces := nofun
  isFirst := nofun
  apart := by simp
  noJoin := by simp
  line_eq := by simp
  stuck _ := ⟨⟨cs, rfl⟩, h⟩

/-- One more segment in front. -/
theorem cons {kind : SegmentKind}
    (h : Dissects (line + newlines text) code segments rest) (hne : text ≠ [])
    (htext : kind = .text → NoBraces text ∧ (code ≠ [] → text.getLast? ≠ some '{') ∧
      ∀ next ∈ segments.head?, next.kind = .directive)
    (hdirective : kind = .directive → IsFirstDirective text) :
    Dissects line (text ++ code) (⟨kind, text, line⟩ :: segments) rest where
  append_eq := by rw [segmentsText_cons, List.append_assoc, h.append_eq]
  ne_nil := List.forall_mem_cons.2 ⟨hne, h.ne_nil⟩
  noBraces := List.forall_mem_cons.2 ⟨fun hkind => (htext hkind).1, h.noBraces⟩
  isFirst := List.forall_mem_cons.2 ⟨hdirective, h.isFirst⟩
  apart := by
    -- at the front the new segment is the text; further behind it is a segment of the rest
    rintro (- | ⟨first, before⟩) segment next after heq hkind
    · obtain ⟨rfl, rfl⟩ := List.cons.inj heq
      exact (htext hkind).2.2 next rfl
    · obtain ⟨-, rfl⟩ := List.cons.inj heq
      exact h.apart before segment next after rfl hkind
  noJoin := by
    rintro (- | ⟨first, before⟩) segment after heq hkind hmore
    · obtain ⟨rfl, rfl⟩ := List.cons.inj heq
      rw [h.append_eq] at hmore
      exact (htext hkind).2.1 hmore
    · obtain ⟨-, rfl⟩ := List.cons.inj heq
      exact h.noJoin before segment after rfl hkind hmore
  line_eq := by
    rintro (- | ⟨first, before⟩) segment after heq
    · obtain ⟨rfl, -⟩ := List.cons.inj heq
      rfl
    · obtain ⟨rfl, rfl⟩ := List.cons.inj heq
      rw [h.line_eq before segment after rfl, segmentsText_cons, Text.newlines_append,
        Nat.add_assoc]
  stuck := h.stuck

/-- What is behind the first segment is dissected as well. -/
theorem tail (h : Dissects line code (segment :: segments) rest) :
    Dissects (line + newlines segment.text) (segmentsText segments ++ rest) segments rest where
  append_eq := rfl
  ne_nil := (List.forall_mem_cons.1 h.ne_nil).2
  noBraces := (List.forall_mem_cons.1 h.noBraces).2
  isFirst := (List.forall_mem_cons.1 h.isFirst).2
  apart before other next after heq := h.apart (segment :: before) other next after (by simp [heq])
  noJoin before other after heq := h.noJoin (segment :: before) other after (by simp [heq])
  line_eq before other after heq := by
    rw [h.line_eq (segment :: before) other after (by simp [heq]), segmentsText_cons,
      Text.newlines_append, Nat.add_assoc]
  stuck := h.stuck

theorem line_head (h : Dissects line code (segment :: segments) rest) : segment.line = line := by
  rw [h.line_eq [] segment segments rfl, segmentsText_nil, Text.newlines_nil, Nat.add_zero]

/-- The first segments of a source are a dissection of their own text. What they stood in front of
is forgotten, and no condition needed more of it than that it was there. -/
theorem of_append (h : Dissects line code (segments ++ more) rest) :
    Dissects line (segmentsText segments) segments [] where
  append_eq := List.append_nil _
  ne_nil segment hmem := h.ne_nil segment (List.mem_append_left more hmem)
  noBraces segment hmem := h.noBraces segment (List.mem_append_left more hmem)
  isFirst segment hmem := h.isFirst segment (List.mem_append_left more hmem)
  apart before segment next after heq :=
    h.apart before segment next (after ++ more) (by simp [heq])
  noJoin before segment after heq hkind hafter := by
    refine h.noJoin before segment (after ++ more) (by simp [heq]) hkind ?_
    intro hnil
    simp_all
  line_eq before segment after heq := h.line_eq before segment (after ++ more) (by simp [heq])
  stuck := fun hne => absurd rfl hne

end Dissects

/-! ### Every source is dissected

By induction on the length of the source. The segment cut off by `spanText` or `spanDirective` is
put before the dissection of the rest; that no text follows text needs a statement about the first
segment in the induction. -/

/-- No brace stands at the end of text before what it would join. -/
theorem getLast?_spanText {cs : List Char} (h : (spanText cs).2 ≠ []) :
    (spanText cs).1.getLast? ≠ some '{' := by
  have hrest := (noBraces_spanText cs).2.resolve_left h
  fun_induction spanText cs with
  | case1 => exact absurd rfl h
  | case2 cs => simp
  | case3 c cs hopen text rest hspan ih =>
    rw [hspan] at ih
    cases text with
    | nil =>
      -- a single brace before a pair of them would have been the place to cut
      obtain ⟨ds, rfl⟩ := hrest
      have happend := append_spanText cs
      rw [hspan, List.nil_append] at happend
      intro hlast
      obtain rfl : c = '{' := by simpa using hlast
      exact hopen _ rfl happend.symm
    | cons d text =>
      rw [List.getLast?_cons_cons]
      exact ih h hrest

/-- Text in which no directive begins is not cut at all. -/
theorem spanText_eq_self {cs : List Char} (h : NoBraces cs) : spanText cs = (cs, []) := by
  induction cs with
  | nil => rfl
  | cons c cs ih =>
    obtain ⟨hopen, hcs⟩ := noBraces_cons_iff.1 h
    rw [spanText_cons hopen, ih hcs]

/-- Where no directive begins and something is left, there is text. -/
theorem spanText_ne_nil {cs : List Char} (hne : cs ≠ []) (hopen : ∀ ds, cs ≠ '{' :: '{' :: ds) :
    (spanText cs).1 ≠ [] := by
  cases cs with
  | nil => exact absurd rfl hne
  | cons c cs =>
    rw [spanText_cons]
    · exact List.cons_ne_nil _ _
    · rintro ds rfl rfl
      exact hopen ds rfl

/-- **Every source falls into segments and a rest.** That a directive comes first where one begins
is carried along, as text must know what is behind it. -/
theorem exists_dissects (line : Nat) (code : List Char) :
    ∃ segments rest, Dissects line code segments rest ∧
      ((code = [] ∨ ∃ ds, code = '{' :: '{' :: ds) →
        ∀ next ∈ segments.head?, next.kind = .directive) := by
  -- what is said of the first segment tells that a directive, or nothing, follows text
  induction hlength : code.length using Nat.strongRecOn generalizing code line with
  | ind n ih =>
    subst hlength
    by_cases hnil : code = []
    · subst hnil
      exact ⟨[], [], .nil, nofun⟩
    -- a directive begins here, or text does
    by_cases hopen : ∃ ds, code = '{' :: '{' :: ds
    · obtain ⟨ds, rfl⟩ := hopen
      cases hspan : spanDirective none ds with
      | none => exact ⟨[], _, .unterminated (spanDirective_eq_none_iff.1 hspan), nofun⟩
      | some cut =>
        obtain ⟨inside, after⟩ := cut
        obtain ⟨rfl, hfirst⟩ := spanDirective_eq_some_iff.1 hspan
        have hlt : after.length < ('{' :: '{' :: (inside ++ after)).length := by
          simp only [List.length_cons, List.length_append]
          omega
        obtain ⟨segments, rest, h, -⟩ :=
          ih _ hlt (line + newlines ('{' :: '{' :: inside)) after rfl
        refine ⟨⟨.directive, '{' :: '{' :: inside, line⟩ :: segments, rest,
          h.cons (by simp) nofun fun _ => hfirst, ?_⟩
        rintro - next ⟨⟩
        rfl
    -- text: it is not empty, so the rest is shorter, and it has no brace at its end
    · have hopen' : ∀ ds, code ≠ '{' :: '{' :: ds := fun ds hds => hopen ⟨ds, hds⟩
      have htext := spanText_ne_nil hnil hopen'
      have happend := append_spanText code
      have hlt : (spanText code).2.length < code.length := by
        have hlength := congrArg List.length happend
        have hpos := List.length_pos_iff.2 htext
        rw [List.length_append] at hlength
        omega
      obtain ⟨segments, rest, h, hhead⟩ :=
        ih _ hlt (line + newlines (spanText code).1) (spanText code).2 rfl
      obtain ⟨hbraces, hafter⟩ := noBraces_spanText code
      refine ⟨⟨.text, (spanText code).1, line⟩ :: segments, rest, ?_, ?_⟩
      · have hcons : Dissects line ((spanText code).1 ++ (spanText code).2)
            (⟨.text, (spanText code).1, line⟩ :: segments) rest :=
          h.cons htext (fun _ => ⟨hbraces, getLast?_spanText, hhead hafter⟩) nofun
        rwa [happend] at hcons
      · rintro (h | h)
        · exact absurd h hnil
        · exact absurd h hopen

/-! ### The splitter

The splitter is a state machine that may be asked any number of times. `answer?` is what the call
after `n` others is answered; along a dissection each answer is the next segment, and behind the
last one there is the error or nothing. -/

namespace Splitter

variable {src : String} {line : Nat} {cs more : List Char}

/-- A complete directive is handed out as it stands. -/
theorem next?_directive (h : IsFirstDirective cs) :
    next? ⟨src, cs ++ more, line⟩
      = some (.ok ⟨.directive, cs, line⟩, ⟨src, more, line + newlines cs⟩) := by
  obtain ⟨inside, rfl, -⟩ := h.complete.exists_closes
  have hspan : spanDirective none (inside ++ more) = some (inside, more) :=
    spanDirective_eq_some_iff.2 ⟨rfl, h⟩
  simp only [next?, List.cons_append, hspan, emit]

/-- A directive that is never complete ends the source. -/
theorem next?_unterminated (h : ∀ before, before <+: '{' :: '{' :: cs → ¬ IsDirective before) :
    next? ⟨src, '{' :: '{' :: cs, line⟩
      = some (.error (.unterminatedDirective ⟨src, line⟩), ⟨src, [], line⟩) := by
  simp only [next?, spanDirective_eq_none_iff.2 h]

/-- Text without braces at its end is handed out up to the next directive, or to the end. -/
theorem next?_text (hne : cs ≠ []) (hbraces : NoBraces cs)
    (hmore : more ≠ [] → (∃ ds, more = '{' :: '{' :: ds) ∧ cs.getLast? ≠ some '{') :
    next? ⟨src, cs ++ more, line⟩
      = some (.ok ⟨.text, cs, line⟩, ⟨src, more, line + newlines cs⟩) := by
  -- text is cut at the pair of braces that follows it, or not at all
  have hspan : spanText (cs ++ more) = (cs, more) := by
    by_cases hnil : more = []
    · rw [hnil, List.append_nil]
      exact spanText_eq_self hbraces
    · obtain ⟨⟨ds, rfl⟩, hlast⟩ := hmore hnil
      exact spanText_append hbraces hlast ds
  rw [next?]
  split
  · next hnil => exact absurd (List.append_eq_nil_iff.1 hnil).1 hne
  · next ds hds =>
    rw [show cs ++ more = '{' :: '{' :: ds from hds] at hspan
    exact absurd (Prod.mk.inj hspan).1.symm hne
  · simp only [hspan, emit]

/-- The splitter behind the next segment; at the end of the source it stays there. -/
def advance (s : Splitter) : Splitter :=
  (s.next?.map Prod.snd).getD s

/-- **The splitter after a number of calls.** Calls may go on behind the end, or behind an error. -/
def after : Nat → Splitter → Splitter
  | 0, s => s
  | n + 1, s => after n s.advance

/-- **What a call is answered**, after a number of calls before it: a segment, an error, or nothing
at the end. -/
def answer? (n : Nat) (s : Splitter) : Option (Except SourceError Segment) :=
  (s.after n).next?.map Prod.fst

theorem answer?_zero (s : Splitter) : s.answer? 0 = s.next?.map Prod.fst := rfl

theorem answer?_succ {s t : Splitter} {result : Except SourceError Segment}
    (h : s.next? = some (result, t)) (n : Nat) : s.answer? (n + 1) = t.answer? n := by
  rw [answer?, after, advance, h]
  rfl

/-- **At its end a source stays at its end**, however often the splitter is asked. -/
theorem answer?_nil (n : Nat) : answer? n ⟨src, [], line⟩ = none := by
  induction n with
  | zero => rfl
  | succ n ih => exact ih

end Splitter

/-- What the splitter says after the segments: an error if something is left. -/
def lastAnswer (src : String) (line : Nat) (segments : List Segment) :
    List Char → List (Except SourceError Segment)
  | [] => []
  | _ :: _ => [.error (.unterminatedDirective ⟨src, line + newlines (segmentsText segments)⟩)]

namespace Dissects

variable {src : String} {line : Nat} {code rest : List Char} {segment : Segment}
  {segments : List Segment}

/-- **The next segment is the first one of a dissection**, and what the splitter is left with is
dissected into the others. -/
theorem next?_eq (h : Dissects line code (segment :: segments) rest) (src : String) :
    Splitter.next? ⟨src, code, line⟩ = some (.ok segment,
      ⟨src, segmentsText segments ++ rest, line + newlines segment.text⟩) := by
  have hline := h.line_head
  obtain ⟨kind, text, _⟩ := segment
  subst hline
  rw [← h.append_eq, segmentsText_cons, List.append_assoc]
  cases kind with
  | directive => exact Splitter.next?_directive (h.isFirst _ List.mem_cons_self rfl)
  | text =>
    refine Splitter.next?_text (h.ne_nil _ List.mem_cons_self) (h.noBraces _ List.mem_cons_self rfl)
      fun hmore => ⟨?_, h.noJoin [] _ segments rfl rfl hmore⟩
    cases segments with
    | nil => exact (h.stuck hmore).1
    | cons next segments =>
      -- behind text comes a directive, which begins with two braces
      have hnext : next.kind = .directive := h.apart [] _ next segments rfl rfl
      obtain ⟨inside, htext, -⟩ := (h.isFirst next (by simp) hnext).complete.exists_closes
      exact ⟨inside ++ (segmentsText segments ++ rest), by simp [htext]⟩

/-- **The splitter hands out the segments of a dissection**, one with each call, then the error if
something is left, and then nothing. -/
theorem answer?_eq (h : Dissects line code segments rest) (src : String) (n : Nat) :
    Splitter.answer? n ⟨src, code, line⟩
      = (segments.map Except.ok ++ lastAnswer src line segments rest)[n]? := by
  induction segments generalizing line code n with
  | nil =>
    rw [← h.append_eq, segmentsText_nil, List.nil_append, List.map_nil, List.nil_append]
    cases rest with
    | nil => rw [Splitter.answer?_nil, lastAnswer, List.getElem?_nil]
    | cons c cs =>
      -- something is left: it begins with braces that are never closed
      obtain ⟨⟨ds, hds⟩, hnone⟩ := h.stuck (List.cons_ne_nil c cs)
      obtain ⟨rfl, rfl⟩ := List.cons.inj hds
      have hnext : Splitter.next? ⟨src, '{' :: '{' :: ds, line⟩ = _ :=
        Splitter.next?_unterminated hnone
      cases n with
      | zero => rw [Splitter.answer?_zero, hnext]; rfl
      | succ n => rw [Splitter.answer?_succ hnext, Splitter.answer?_nil]; rfl
  -- the first call is answered the first segment, and the others are calls behind it
  | cons segment segments ih =>
    have hnext := h.next?_eq src
    cases n with
    | zero => rw [Splitter.answer?_zero, hnext]; rfl
    | succ n =>
      rw [Splitter.answer?_succ hnext, ih h.tail n, List.map_cons, List.cons_append,
        List.getElem?_cons_succ]
      cases rest with
      | nil => rfl
      | cons c cs =>
        rw [lastAnswer, lastAnswer, segmentsText_cons, Text.newlines_append, Nat.add_assoc]

/-- **The splitter counts the lines of what it has handed out.** The count is part of its state and
grows with every call; it is not read off the source again. -/
theorem line_after (h : Dissects line code segments rest) (src : String) :
    (Splitter.after segments.length ⟨src, code, line⟩).line
      = line + newlines (segmentsText segments) := by
  induction segments generalizing line code with
  | nil => rfl
  | cons segment segments ih =>
    rw [List.length_cons, Splitter.after, Splitter.advance, h.next?_eq src, Option.map_some,
      Option.getD_some, ih h.tail, segmentsText_cons, Text.newlines_append, Nat.add_assoc]

/-- **A source falls into segments and a rest in one way only**, since the splitter hands out both
and can give one answer only. -/
theorem unique {others : List Segment} {stop : List Char}
    (h : Dissects line code segments rest) (h' : Dissects line code others stop) :
    others = segments ∧ stop = rest := by
  have hanswers : others.map Except.ok ++ lastAnswer "" line others stop
      = segments.map Except.ok ++ lastAnswer "" line segments rest :=
    List.ext_getElem? fun n => by rw [← h.answer?_eq, ← h'.answer?_eq]
  -- of the answers, those that are segments
  have hfound (found : List Segment) (left : List Char) :
      (found.map Except.ok ++ lastAnswer "" line found left).filterMap Except.toOption = found := by
    rw [List.filterMap_append, List.filterMap_map]
    cases left <;> simp [lastAnswer, Function.comp_def, Except.toOption]
  obtain rfl : others = segments := by rw [← hfound others stop, hanswers, hfound]
  exact ⟨rfl, List.append_cancel_left (h'.append_eq.trans h.append_eq.symm)⟩

end Dissects

end Stencil
