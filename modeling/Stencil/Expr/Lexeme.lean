import Stencil.Text.Blank
import Stencil.Text.Literal

/-!
# Lexemes

The interior of a directive is cut into lexemes: runs of spacing, single delimiters, quoted
literals, and words, which are runs of anything else. Only a literal without its closing quote
stops the cutting. Each lexeme knows how many bytes stand before it.
-/

namespace Stencil

/-- **The kinds of lexeme.** Spacing is a kind like the others: it is the reader that passes over
it, after counting its lines. -/
inductive LexemeKind
  /-- a run of characters that are none of the others -/
  | word
  /-- a run of spacing -/
  | space
  /-- an opening parenthesis -/
  | openParen
  /-- a closing parenthesis -/
  | closeParen
  /-- a vertical bar -/
  | pipe
  /-- a comma -/
  | comma
  /-- a literal, its quotes included -/
  | quoted
  deriving DecidableEq, Repr, Inhabited

/-- **A lexeme**: a stretch of one kind, as it stands, with its place in the text it was cut
from. -/
structure Lexeme where
  /-- which kind it is -/
  kind : LexemeKind
  /-- its characters -/
  text : List Char
  /-- the number of bytes before it -/
  offset : Nat
  deriving DecidableEq, Repr, Inhabited

/-- The characters of words: all but spacing, quotes and the four delimiters. A word is not yet an
identifier or a reference; that is for the reader to find out. -/
def isWordChar (c : Char) : Bool :=
  !(Text.isSpacing c || Text.Literal.isQuote c || c == '(' || c == ')' || c == '|' || c == ',')

/-- The bytes of a text in UTF-8. -/
def byteLength : List Char → Nat
  | [] => 0
  | c :: cs => c.utf8Size + byteLength cs

/-- **The first lexeme** of a text that begins with `c`: its kind, its characters, and the text
after it. There is none if a literal begins and does not end. -/
def firstLexeme? (c : Char) (cs : List Char) : Option (LexemeKind × List Char × List Char) :=
  if c = '(' then some (.openParen, [c], cs)
  else if c = ')' then some (.closeParen, [c], cs)
  else if c = '|' then some (.pipe, [c], cs)
  else if c = ',' then some (.comma, [c], cs)
  else if Text.Literal.isQuote c then
    (Text.Literal.span c cs).map fun (literal, rest) => (.quoted, c :: literal, rest)
  else if Text.isSpacing c then
    some (.space, c :: cs.takeWhile Text.isSpacing, cs.dropWhile Text.isSpacing)
  else
    some (.word, c :: cs.takeWhile isWordChar, cs.dropWhile isWordChar)

/-- What follows a lexeme is no longer than what follows its first character. The lexer is a
recursion on the length of what is left, and this is what ends it. -/
theorem length_le_of_firstLexeme? {c : Char} {cs text rest : List Char} {kind : LexemeKind}
    (h : firstLexeme? c cs = some (kind, text, rest)) : rest.length ≤ cs.length := by
  have drop_le (p : Char → Bool) : (cs.dropWhile p).length ≤ cs.length :=
    (List.dropWhile_suffix p).length_le
  unfold firstLexeme? at h
  split at h
  · cases h
    exact Nat.le_refl _
  split at h
  · cases h
    exact Nat.le_refl _
  split at h
  · cases h
    exact Nat.le_refl _
  split at h
  · cases h
    exact Nat.le_refl _
  split at h
  · simp only [Option.map_eq_some_iff, Prod.mk.injEq] at h
    obtain ⟨⟨literal, after⟩, hspan, -, -, rfl⟩ := h
    exact Nat.le_of_lt (Text.Literal.length_lt_of_span hspan)
  split at h
  -- spacing and words: the rest of a run is a suffix of the text
  all_goals
    cases h
    exact drop_le _

/-- **The lexemes of a text** that `offset` bytes stand before; failing, the text from the literal
that does not end. -/
def lexemesFrom (offset : Nat) : List Char → Except (List Char) (List Lexeme)
  | [] => .ok []
  | c :: cs =>
    match h : firstLexeme? c cs with
    | none => .error (c :: cs)
    | some (kind, text, rest) =>
      have := length_le_of_firstLexeme? h
      (lexemesFrom (offset + byteLength text) rest).map (⟨kind, text, offset⟩ :: ·)
termination_by cs => cs.length

/-- **The lexemes of a text.** The only way to fail is a quote that opens a literal and is never
closed; the text from that quote on is given back. -/
def lexemes (cs : List Char) : Except (List Char) (List Lexeme) :=
  lexemesFrom 0 cs

/-- The characters of a row of lexemes. -/
def lexemesText (row : List Lexeme) : List Char :=
  row.flatMap (·.text)

@[simp] theorem lexemesText_nil : lexemesText [] = [] := rfl

@[simp] theorem lexemesText_cons (lexeme : Lexeme) (row : List Lexeme) :
    lexemesText (lexeme :: row) = lexeme.text ++ lexemesText row := rfl

@[simp] theorem lexemesText_append (row others : List Lexeme) :
    lexemesText (row ++ others) = lexemesText row ++ lexemesText others :=
  List.flatMap_append

end Stencil
