import Stencil.Node.Basic
import Stencil.Segment.Basic

/-!
# What a segment announces

A directive that begins with one of seven words, right behind its braces and up to a boundary of
words, belongs to the structure of a template; every other directive is an expression to
interpolate. Which words do what is settled here once (`Segment.heading`).
-/

namespace Stencil

/-- ASCII letters. -/
def isLetter (c : Char) : Bool :=
  ('a' ≤ c && c ≤ 'z') || ('A' ≤ c && c ≤ 'Z')

/-- ASCII letters and digits. -/
def isAlphanumeric (c : Char) : Bool :=
  isLetter c || ('0' ≤ c && c ≤ '9')

/-- **Identifiers** name functions and properties: an ASCII letter, then ASCII letters and
digits. -/
def isIdentifier : List Char → Bool
  | [] => false
  | c :: cs => isLetter c && cs.all isAlphanumeric

/-- **What a segment announces**, with the part of its interior that says more. Whether that part
can be read is not decided here. -/
inductive Heading
  /-- text that stands as it is -/
  | text (content : List Char)
  /-- an expression to interpolate -/
  | interpolation (expression : List Char)
  /-- another template run in place -/
  | inclusion (rest : List Char)
  /-- a block begins -/
  | block (kind : BlockKind) (rest : List Char)
  /-- a definition begins -/
  | define (rest : List Char)
  /-- the alternative of a block begins -/
  | orElse (rest : List Char)
  /-- a block or definition ends -/
  | close (rest : List Char)
  deriving DecidableEq, Repr

/-- The words that begin structural directives, with what they announce. No two of the words are
equal, and after any of them a boundary has to follow, so at most one entry can match. -/
def headings : List (String × (List Char → Heading)) :=
  [("if", .block .ifBlock), ("range", .block .range), ("with", .block .withBlock),
    ("template", .inclusion), ("define", .define), ("end", .close), ("else", .orElse)]

/-- Whether a word may end before a text: no ASCII letter, digit or underscore follows. Any other
character ends a word, also a letter outside ASCII. -/
def isBoundary (cs : List Char) : Bool :=
  match cs with
  | [] => true
  | c :: _ => !(isAlphanumeric c || c == '_')

/-- What follows a word at the beginning of a text, if the word ends there. So `iff` and `if_` begin
no block, but `if(` does. -/
def afterWord? (word : String) (cs : List Char) : Option (List Char) :=
  if word.toList.isPrefixOf cs && isBoundary (cs.drop word.toList.length) then
    some (cs.drop word.toList.length)
  else none

/-- A word and what follows it make up the text. -/
theorem append_of_afterWord? {word : String} {cs rest : List Char}
    (h : afterWord? word cs = some rest) : word.toList ++ rest = cs := by
  unfold afterWord? at h
  split at h
  · next hprefix =>
    obtain ⟨more, rfl⟩ := List.isPrefixOf_iff_prefix.1 (Bool.and_eq_true_iff.1 hprefix).1
    obtain rfl := Option.some.inj h
    rw [List.drop_left]
  · cases h

/-- What the interior of a directive announces. The word has to stand right behind the braces: with
a space in front of it the interior is an expression, and the word is the name of a function. -/
def Heading.ofInterior (cs : List Char) : Heading :=
  (headings.findSome? fun (word, announce) => (afterWord? word cs).map announce).getD
    (.interpolation cs)

/-- The first word that a text begins with decides. -/
theorem Heading.ofInterior_eq (cs : List Char) :
    Heading.ofInterior cs
      = (headings.findSome? fun entry => (afterWord? entry.1 cs).map entry.2).getD
          (.interpolation cs) := rfl

/-- Either a word of the table decides, with what follows it, or all is an expression. Proofs about
directives split by this, and so not into seven cases. -/
theorem Heading.ofInterior_cases (cs : List Char) :
    Heading.ofInterior cs = .interpolation cs ∨
      ∃ entry ∈ headings, ∃ rest, afterWord? entry.1 cs = some rest ∧
        Heading.ofInterior cs = entry.2 rest := by
  rw [Heading.ofInterior_eq]
  cases hfirst : headings.findSome? fun entry => (afterWord? entry.1 cs).map entry.2 with
  | none => exact .inl rfl
  | some announced =>
    obtain ⟨entry, hentry, hannounced⟩ := List.exists_of_findSome?_eq_some hfirst
    obtain ⟨rest, hafter, rfl⟩ := Option.map_eq_some_iff.1 hannounced
    exact .inr ⟨entry, hentry, rest, hafter, rfl⟩

/-- **What a segment announces.** Text announces itself, whatever words it begins with. -/
def Segment.heading (segment : Segment) : Heading :=
  match segment.kind with
  | .text => .text segment.text
  | .directive => Heading.ofInterior segment.interior

end Stencil
