/-!
# Blank text

Two notions of space meet in a template. Between the words of an expression only
space, tab, line feed and carriage return count (`isSpacing`). Whether a piece of text
is *blank* asks for the Unicode property `White_Space` (`isWhite`), which holds
of 25 characters. The first set lies inside the second (`isWhite_of_isSpacing`).
-/

namespace Stencil.Text

/-- The Unicode property `White_Space`: the characters from tab to carriage return,
space, next line, no-break space, and the typographic spaces and separators. -/
def isWhite (c : Char) : Bool :=
  let n := c.toNat
  (0x09 ≤ n && n ≤ 0x0D) || n == 0x20 || n == 0x85 || n == 0xA0 || n == 0x1680
    || (0x2000 ≤ n && n ≤ 0x200A) || n == 0x2028 || n == 0x2029 || n == 0x202F
    || n == 0x205F || n == 0x3000

/-- **Blank** text holds white space only; empty text is blank. Blank text before a definition and
at the end of a source belongs to no template. -/
def isBlank (cs : List Char) : Bool :=
  cs.all isWhite

/-- The characters that separate the words of an expression. -/
def isSpacing (c : Char) : Bool :=
  c == ' ' || c == '\t' || c == '\n' || c == '\r'

theorem isWhite_of_isSpacing {c : Char} (h : isSpacing c = true) : isWhite c = true := by
  simp only [isSpacing, Bool.or_eq_true, beq_iff_eq] at h
  rcases h with ((rfl | rfl) | rfl) | rfl <;> rfl

@[simp] theorem isBlank_nil : isBlank [] = true := rfl

@[simp] theorem isBlank_append (as bs : List Char) :
    isBlank (as ++ bs) = (isBlank as && isBlank bs) := by
  simp [isBlank]

end Stencil.Text
