import Stencil.Proofs.Bytes.Cutting

/-!
# Lexemes by bytes

The interior of a directive is cut into lexemes at places that are counted in bytes. Each lexeme is
a slice of what is left, and its offset is a place where the rest can be sliced off again. No
slice is amiss, and the lexemes are those that are cut character by character
(`lexemes?_eq`).
-/

namespace Stencil

open Text (isSpacing)
open Text.Literal (isQuote)

/-- **The kind of the first lexeme**, and its number of bytes, of a text that begins with `c`. The
bytes of a literal are found by `quotedEnd`, those of white space and words by the characters they
consist of. -/
def lexemeLength? (c : Char) (text : List Char) : Option (LexemeKind × Nat) :=
  if c = '(' then some (.openParen, 1)
  else if c = ')' then some (.closeParen, 1)
  else if c = '|' then some (.pipe, 1)
  else if c = ',' then some (.comma, 1)
  else if isQuote c then (quotedEnd (utf8 text) c.toUInt8 1).map fun stop => (.quoted, stop)
  else if isSpacing c then some (.space, byteLength (text.takeWhile isSpacing))
  else some (.word, byteLength (text.takeWhile isWordChar))

/-- **The first lexeme is as long as its bytes say**: going over bytes finds the place where going
over characters ends. -/
theorem lexemeLength?_eq (c : Char) (cs : List Char) :
    lexemeLength? c (c :: cs)
      = (firstLexeme? c cs).map fun first => (first.1, byteLength first.2.1) := by
  -- the four kinds of characters that a lexeme can begin with
  rcases char_cases c with hspace | hquote | (rfl | rfl | rfl | rfl) | hword
  · have hfirst : lexemeLength? c (c :: cs)
        = some (.space, byteLength ((c :: cs).takeWhile isSpacing)) := by
      simp only [isSpacing, Bool.or_eq_true, beq_iff_eq] at hspace
      rcases hspace with ((rfl | rfl) | rfl) | rfl <;> rfl
    rw [hfirst, firstLexeme?_spacing hspace, List.takeWhile_cons_of_pos hspace, Option.map_some]
  · have hfirst : lexemeLength? c (c :: cs)
        = (quotedEnd (utf8 (c :: cs)) c.toUInt8 1).map fun stop => (.quoted, stop) := by
      simp only [isQuote, Bool.or_eq_true, beq_iff_eq] at hquote
      rcases hquote with rfl | rfl <;> rfl
    have hone := utf8Size_of_lt (toNat_lt_of_isQuote hquote)
    have hdrop : (utf8 (c :: cs)).drop 1 = utf8 cs := by
      rw [utf8_cons_of_lt (toNat_lt_of_isQuote hquote)]
      rfl
    rw [hfirst, firstLexeme?_quote hquote, quotedEnd_of_drop_eq_utf8 hquote hdrop, Option.map_map,
      Option.map_map]
    congr 1
    funext found
    simp [hone]
  · rfl
  · rfl
  · rfl
  · rfl
  · have hfirst : lexemeLength? c (c :: cs)
        = some (.word, byteLength ((c :: cs).takeWhile isWordChar)) := by
      have hparts := hword
      simp only [isWordChar, Bool.not_eq_true', Bool.or_eq_false_iff,
        beq_eq_false_iff_ne] at hparts
      simp [lexemeLength?, hparts]
    rw [hfirst, firstLexeme?_word hword, List.takeWhile_cons_of_pos hword, Option.map_some]

/-- A lexeme has bytes. -/
theorem lexemeLength?_pos {c : Char} {cs : List Char} {kind : LexemeKind} {length : Nat}
    (h : lexemeLength? c (c :: cs) = some (kind, length)) : 0 < length := by
  rw [lexemeLength?_eq] at h
  obtain ⟨⟨kind', text, rest⟩, hfirst, heq⟩ := Option.map_eq_some_iff.1 h
  cases heq
  refine byteLength_pos ?_
  rintro rfl
  have happend := append_of_firstLexeme? hfirst
  have hlength := length_le_of_firstLexeme? hfirst
  rw [List.nil_append] at happend
  rw [happend] at hlength
  exact Nat.not_succ_le_self _ hlength

/-- **The lexemes of a text from a place on**; failing, the text from the literal that does not end.
The rest of the text is sliced off at the place of each lexeme, and the lexeme is sliced off the
rest. -/
def lexemesFrom? (text : List Char) (offset : Nat) : Option (Except (List Char) (List Lexeme)) :=
  if offset < byteLength text then
    match slice? text offset (byteLength text) with
    | none => none
    | some [] => some (.ok [])
    | some (c :: cs) =>
      match hlength : lexemeLength? c (c :: cs) with
      | none => some (.error (c :: cs))
      | some (kind, length) =>
        have := lexemeLength?_pos hlength
        (slice? (c :: cs) 0 length).bind fun word =>
          (lexemesFrom? text (offset + length)).map (·.map (⟨kind, word, offset⟩ :: ·))
  else some (.ok [])
termination_by byteLength text - offset

/-- **The lexemes of a text.** -/
def lexemes? (text : List Char) : Option (Except (List Char) (List Lexeme)) :=
  lexemesFrom? text 0

/-- **From every place between characters the lexemes are those of what is left there.** -/
theorem lexemesFrom?_eq (before rest : List Char) :
    lexemesFrom? (before ++ rest) (byteLength before)
      = some (lexemesFrom (byteLength before) rest) := by
  -- on what is left behind the place; each lexeme goes from there to the text in front of it
  induction hn : rest.length using Nat.strongRecOn generalizing before rest with
  | ind n ih =>
    subst hn
    rw [lexemesFrom?]
    cases rest with
    | nil =>
      rw [List.append_nil, if_neg (Nat.lt_irrefl _), lexemesFrom]
    | cons c cs =>
      have hpos := byteLength_pos (List.cons_ne_nil c cs)
      rw [if_pos (by rw [byteLength_append]; omega), slice?_suffix]
      dsimp only
      have hlexeme := lexemeLength?_eq c cs
      cases hfirst : firstLexeme? c cs with
      | none =>
        rw [hfirst, Option.map_none] at hlexeme
        rw [lexemesFrom_cons_of_none hfirst]
        split
        · rfl
        · next hsome =>
          rw [hlexeme] at hsome
          cases hsome
      | some first =>
        obtain ⟨kind, word, after⟩ := first
        rw [hfirst, Option.map_some] at hlexeme
        have happend := append_of_firstLexeme? hfirst
        split
        · next hnone =>
          rw [hlexeme] at hnone
          cases hnone
        · next hsome =>
          rw [hlexeme] at hsome
          cases hsome
          -- the next place is behind the word, which is between characters again
          have hbehind := ih after.length
            (Nat.lt_succ_of_le (length_le_of_firstLexeme? hfirst)) (before ++ word) after rfl
          rw [List.append_assoc, happend, byteLength_append] at hbehind
          rw [lexemesFrom_cons hfirst, hbehind, ← happend, slice?_prefix]
          rfl

/-- **The lexemes by bytes are those by characters**, with the same offsets, and the slices of them
are all there. -/
@[simp] theorem lexemes?_eq (text : List Char) : lexemes? text = some (lexemes text) :=
  lexemesFrom?_eq [] text

end Stencil
