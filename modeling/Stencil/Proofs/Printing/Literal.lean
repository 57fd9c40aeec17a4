import Stencil.Proofs.Bytes.Scanning
import Stencil.Proofs.Segment.Cutting

/-!
# Literals as they are written

A text that is written as a literal comes back as it was (`written_literals_read_back`), whatever
characters it has and whatever the literal stands before. Whoever goes through a source comes out
behind the closing quote: the splitter, which looks for the end of a directive, and the lexer, which
looks for the end of the literal. Both do so whether they go character by character or byte by byte.
What is between the quotes then decodes to the text.

No control character is written as it is, so there is no line ending in a literal for a source to
lose when its line endings are made alike.
-/

namespace Stencil

open Text (Literal.write)

/-! ### Between the quotes -/

/-- What is between the quotes of a written literal is the encoding of the text, and decoding it
gives the text. -/
theorem decode_body_write (cs : List Char) :
    Text.Literal.decode (Text.Literal.body (Literal.write cs)) = .ok cs := by
  have hbody : Text.Literal.body (Literal.write cs) = Text.Literal.encode cs := by
    rw [Text.Literal.body, Literal.write, List.drop_one, List.tail_cons, List.dropLast_concat]
  rw [hbody, Text.Literal.decode_encode]

/-! ### Going through

Every lemma has the text behind the literal as a parameter, and those of the directive also the text
before it. Nothing is asked of either, because a written literal is closed by its own last character
whatever comes next: this is what makes the lemmas fit for a literal in the middle of an expression,
and not only for one that stands alone. -/

/-- **A written literal is a lexeme**, and those of the text behind it follow, as far behind as the
literal is long. -/
theorem lexemes_write_append (cs rest : List Char) :
    lexemes (Literal.write cs ++ rest) = (lexemes rest).map fun row =>
      ⟨.quoted, Literal.write cs, 0⟩
        :: row.map (Lexeme.behind (byteLength (Literal.write cs))) := by
  have hfirst : firstLexeme? '"' ((Literal.write cs).tail ++ rest)
      = some (.quoted, Literal.write cs, rest) := by
    rw [firstLexeme?_quote rfl, Text.Literal.span_write]
    rfl
  have hcons : Literal.write cs ++ rest = '"' :: ((Literal.write cs).tail ++ rest) := rfl
  rw [hcons, lexemes, lexemesFrom_cons hfirst, Nat.zero_add, lexemesFrom_eq]
  -- what is behind the literal may still go wrong, and then the whole does
  cases lexemes rest <;> rfl

/-- From inside a written literal, the place behind it is found in the bytes. -/
theorem quotedEnd_write (cs rest : List Char) :
    quotedEnd (utf8 (Literal.write cs ++ rest)) '"'.toUInt8 1
      = some (byteLength (Literal.write cs)) := by
  have hdrop : dropBytes 1 (Literal.write cs ++ rest) = (Literal.write cs).tail ++ rest :=
    dropBytes_append ['"'] _
  rw [quotedEnd_eq rfl, hdrop, Text.Literal.span_write, Option.map_some, byteLength_append,
    Nat.add_sub_cancel]

/-- In the bytes, the end of a directive that is looked for from a written literal on is the one
that is looked for from behind it. -/
theorem directiveEnd_write (before cs rest : List Char) :
    directiveEnd (utf8 (before ++ Literal.write cs ++ rest)) (byteLength before)
      = directiveEnd (utf8 (before ++ Literal.write cs ++ rest))
          (byteLength (before ++ Literal.write cs)) := by
  have hdrop : dropBytes (byteLength before) (before ++ Literal.write cs ++ rest)
      = Literal.write cs ++ rest := by
    rw [List.append_assoc, dropBytes_append]
  rw [directiveEnd_eq, directiveEnd_eq, hdrop, dropBytes_append, closed_write, Option.map_map]
  rfl

/-! ### Line endings

What the reader sees is not the source but the source with its line endings made alike. A literal is
safe from that as it has no line endings of its own, and because it begins and ends with a quote, so
no carriage return on one side can meet a line feed on the other. -/

theorem return_notMem_write (cs : List Char) : '\r' ∉ Literal.write cs := by
  intro hreturn
  cases Text.Literal.isControl_eq_false_of_mem_write hreturn

theorem feed_notMem_write (cs : List Char) : '\n' ∉ Literal.write cs := by
  intro hfeed
  cases Text.Literal.isControl_eq_false_of_mem_write hfeed

/-- Line endings are made alike before a written literal and behind it, and it stays. -/
theorem normalize_write (before cs after : List Char) :
    Text.normalize (before ++ Literal.write cs ++ after)
      = Text.normalize before ++ Literal.write cs ++ Text.normalize after := by
  -- the seams are at quotes, so nothing is made alike across them
  have hlast : (before ++ Literal.write cs).getLast? = some '"' := by
    rw [Literal.write, ← List.cons_append, ← List.append_assoc, List.getLast?_concat]
  rw [Text.normalize_append_of_seam (by simp [hlast]),
    Text.normalize_append_of_seam (by simp [Literal.write]),
    Text.normalize_eq_self (return_notMem_write cs)]

/-! ### There and back -/

/-- **Written literals read back.** What a text is written as decodes to the text. It is the first
lexeme of every text that it begins, and only behind it can something go wrong. The search for the
end of a directive passes over it, and so do both searches in the bytes. Making line endings alike
does not touch it. -/
theorem written_literals_read_back (cs : List Char) :
    Text.Literal.decode (Text.Literal.body (Literal.write cs)) = .ok cs ∧
    (∀ rest, lexemes (Literal.write cs ++ rest) = (lexemes rest).map fun row =>
      ⟨.quoted, Literal.write cs, 0⟩
        :: row.map (Lexeme.behind (byteLength (Literal.write cs)))) ∧
    (∀ rest, spanDirective none (Literal.write cs ++ rest) =
      (spanDirective none rest).map fun (inside, after) => (Literal.write cs ++ inside, after)) ∧
    (∀ rest, quotedEnd (utf8 (Literal.write cs ++ rest)) '"'.toUInt8 1
      = some (byteLength (Literal.write cs))) ∧
    (∀ before rest, directiveEnd (utf8 (before ++ Literal.write cs ++ rest)) (byteLength before)
      = directiveEnd (utf8 (before ++ Literal.write cs ++ rest))
          (byteLength (before ++ Literal.write cs))) ∧
    '\r' ∉ Literal.write cs ∧ '\n' ∉ Literal.write cs ∧
    ∀ before after, Text.normalize (before ++ Literal.write cs ++ after)
      = Text.normalize before ++ Literal.write cs ++ Text.normalize after := by
  refine ⟨decode_body_write cs, lexemes_write_append cs, closed_write cs, quotedEnd_write cs, ?_,
    return_notMem_write cs, feed_notMem_write cs, ?_⟩
  · intro before rest
    exact directiveEnd_write before cs rest
  · intro before after
    exact normalize_write before cs after

/-- Closing braces between quotes, and what looks like the end of a literal, close nothing. -/
example :
    let literal := Literal.write ['}', '}', '"', '\\', '\x7F', '0']
    literal = ['"', '}', '}', '\\', '"', '\\', '\\', '\\', 'x', '7', 'f', '0', '"'] ∧
      spanDirective none (literal ++ ['}', '}']) = some (literal ++ ['}', '}'], []) := by
  decide

end Stencil
