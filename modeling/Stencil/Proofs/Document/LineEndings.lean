import Stencil.Render

/-!
# Line endings of any kind

A source may end each of its lines in the one or the other way. Normalizing goes over it twice, but
does what one pass from left to right does that takes every ending for as long as it can be
(`readEndings`). Whatever endings the line feeds of a code without carriage returns are written as
(`IsRespelling`), they are read as line feeds again, so it makes no difference to the templates,
their lines and the errors (`line_endings_are_read_alike`).
-/

namespace Stencil

open Text (normalize normalize_cons normalize_loneReturn normalize_pair)

/-! ### One pass

Two passes would read a text as one does if the first left the second nothing to mistake. What one
pass has to know is one bit, whether a carriage return has just ended the line; with the bit set,
the two passes are to be compared with that carriage return still in front. -/

/-- **Line endings read in one pass**, character by character: a line feed ends no line if it comes
right after a carriage return, which has ended it already. -/
def readEndings (afterReturn : Bool) : List Char → List Char
  | [] => []
  | '\r' :: cs => '\n' :: readEndings true cs
  | '\n' :: cs => if afterReturn then readEndings false cs else '\n' :: readEndings false cs
  | c :: cs => c :: readEndings false cs

/-- Two passes do what one does, also from behind a carriage return on. -/
theorem readEndings_eq_normalize (cs : List Char) :
    readEndings false cs = normalize cs ∧
      '\n' :: readEndings true cs = normalize ('\r' :: cs) := by
  -- both halves at once: behind a carriage return the first needs the second, and the other way
  -- round
  induction cs with
  | nil => exact ⟨rfl, rfl⟩
  | cons c cs ih =>
    obtain ⟨ihFalse, ihTrue⟩ := ih
    by_cases hreturn : c = '\r'
    · subst hreturn
      refine ⟨ihTrue, ?_⟩
      rw [normalize_loneReturn (by simp), ← ihTrue]
      rfl
    -- the line feed belongs to the carriage return in front, if there is one
    by_cases hfeed : c = '\n'
    · subst hfeed
      rw [normalize_pair, normalize_cons hreturn, ← ihFalse]
      exact ⟨rfl, rfl⟩
    · have hplain (afterReturn : Bool) :
          readEndings afterReturn (c :: cs) = c :: readEndings false cs := by
        rw [readEndings] <;> assumption
      rw [normalize_loneReturn (by simpa using hfeed), normalize_cons hreturn, hplain, hplain,
        ihFalse]
      exact ⟨rfl, rfl⟩

/-! ### Every way to write line endings -/

/-- **A code with its line feeds written as line endings**, each in any of three ways: as they are,
behind a carriage return, or as a carriage return that no line feed comes right after. The code
itself has no carriage returns. -/
inductive IsRespelling : List Char → List Char → Prop
  /-- nothing -/
  | nil : IsRespelling [] []
  /-- a line feed as a pair -/
  | pair {code text : List Char} :
    IsRespelling code text → IsRespelling ('\n' :: code) ('\r' :: '\n' :: text)
  /-- a line feed as it is -/
  | feed {code text : List Char} :
    IsRespelling code text → IsRespelling ('\n' :: code) ('\n' :: text)
  /-- a line feed as a carriage return -/
  | loneReturn {code text : List Char} :
    text.head? ≠ some '\n' → IsRespelling code text → IsRespelling ('\n' :: code) ('\r' :: text)
  /-- a character that ends no line -/
  | plain {c : Char} {code text : List Char} :
    c ≠ '\r' → c ≠ '\n' → IsRespelling code text → IsRespelling (c :: code) (c :: text)

/-- **What is written with line endings of any kind is normalized to the code**, and different kinds
may be mixed in one text. -/
theorem IsRespelling.normalize_eq {code text : List Char} (h : IsRespelling code text) :
    normalize text = code := by
  induction h with
  | nil => rfl
  | pair _ ih => rw [normalize_pair, ih]
  | feed _ ih => rw [normalize_cons (by decide), ih]
  | loneReturn hhead _ ih => rw [normalize_loneReturn hhead, ih]
  | plain hreturn _ _ ih => rw [normalize_cons hreturn, ih]

/-- **Every text is written so**, with what it is normalized to as the code. -/
theorem isRespelling_normalize (text : List Char) : IsRespelling (normalize text) text := by
  -- along the first pass, which tells a pair from a carriage return that stands alone
  fun_induction Text.joinPairs text with
  | case1 cs ih => exact .pair ih
  | case2 c cs hpair ih =>
    by_cases hreturn : c = '\r'
    · subst hreturn
      have hhead : cs.head? ≠ some '\n' := by
        intro hfeed
        obtain ⟨ds, rfl⟩ := List.head?_eq_some_iff.1 hfeed
        exact hpair ds rfl rfl
      rw [normalize_loneReturn hhead]
      exact .loneReturn hhead ih
    · rw [normalize_cons hreturn]
      by_cases hfeed : c = '\n'
      · subst hfeed
        exact .feed ih
      · exact .plain hreturn hfeed ih
  | case3 => exact .nil

/-- **Normalizing reads line endings**, and nothing else: two texts become the same exactly if they
spell one code. -/
theorem normalize_eq_iff {code text : List Char} :
    normalize text = code ↔ IsRespelling code text := by
  refine ⟨?_, IsRespelling.normalize_eq⟩
  rintro rfl
  exact isRespelling_normalize text

/-- **Sources that are normalized to the same text are the same**: nothing else of a source is ever
looked at. -/
theorem TemplateSet.ofSource_congr {code text : String}
    (h : normalize text.toList = normalize code.toList) (src : String) (name? : Option String) :
    TemplateSet.ofSource src text name? = TemplateSet.ofSource src code name? := by
  rw [TemplateSet.ofSource, TemplateSet.ofSource, h]

/-! ### Whichever it is -/

/-- **Line endings are read alike.** Normalizing is one pass that takes every line ending for as
long as it can be, and undoes every way to write line feeds as line endings. It leaves no carriage
return, and does nothing the second time. Texts are normalized apart, but for a pair across their
seam, of which one line feed is left and not two. A source is read in the same way, down to its
lines and errors, whatever its line feeds are written as. -/
theorem line_endings_are_read_alike :
    (∀ text, normalize text = readEndings false text) ∧
    (∀ text code, normalize text = code ↔ IsRespelling code text) ∧
    (∀ text, '\r' ∉ normalize text ∧ normalize (normalize text) = normalize text) ∧
    (∀ as bs : List Char, ¬(as.getLast? = some '\r' ∧ bs.head? = some '\n') →
      normalize (as ++ bs) = normalize as ++ normalize bs) ∧
    (∀ as bs : List Char, as.getLast? = some '\r' → bs.head? = some '\n' →
      ∃ front back, normalize as = front ++ ['\n'] ∧ normalize bs = '\n' :: back ∧
        normalize (as ++ bs) = front ++ '\n' :: back) ∧
    ∀ code text : String, '\r' ∉ code.toList → IsRespelling code.toList text.toList →
      ∀ src name?, TemplateSet.ofSource src text name? = TemplateSet.ofSource src code name? := by
  refine ⟨?_, ?_, ?_, ?_, ?_, ?_⟩
  · intro text
    exact (readEndings_eq_normalize text).1.symm
  · intro text code
    exact normalize_eq_iff
  · intro text
    exact ⟨Text.return_notMem_normalize text, Text.normalize_normalize text⟩
  · intro as bs hseam
    exact Text.normalize_append_of_seam fun hlast hhead => hseam ⟨hlast, hhead⟩
  · intro as bs
    exact Text.normalize_append_of_pair
  · intro code text hcode hrespelling src name?
    refine TemplateSet.ofSource_congr ?_ src name?
    rw [hrespelling.normalize_eq, Text.normalize_eq_self hcode]

/-- A pair and a lone carriage return end lines as two line feeds do, and a pair is one ending also
where it is put together. -/
theorem mixed_endings_are_read_alike :
    let code := "a\n\x7b\x7b.x\x7d\x7d\nb"
    let text := "a\r\n\x7b\x7b.x\x7d\x7d\rb"
    '\r' ∉ code.toList ∧ IsRespelling code.toList text.toList ∧
      TemplateSet.ofSource "t" text (some "t") = TemplateSet.ofSource "t" code (some "t") ∧
      ['a', '\r'].getLast? = some '\r' ∧ ['\n', 'b'].head? = some '\n' ∧
      ∃ front back, normalize ['a', '\r'] = front ++ ['\n'] ∧
        normalize ['\n', 'b'] = '\n' :: back ∧
        normalize (['a', '\r'] ++ ['\n', 'b']) = front ++ '\n' :: back := by
  intro code text
  obtain ⟨-, hiff, -, -, hseam, hsource⟩ := line_endings_are_read_alike
  have hcode : '\r' ∉ code.toList := by decide
  have hrespelling : IsRespelling code.toList text.toList := (hiff _ _).1 (by decide)
  exact ⟨hcode, hrespelling, hsource code text hcode hrespelling "t" (some "t"), rfl, rfl,
    hseam ['a', '\r'] ['\n', 'b'] rfl rfl⟩

end Stencil
