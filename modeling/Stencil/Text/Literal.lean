/-!
# Quoted literals

A literal is written between two quotes of one kind, single or double; inside, a
backslash takes the character after it along. `span` finds where a literal ends,
`decode` reads what stands between the quotes, and `write` gives the double-quoted form of
any text. What `write` puts down, `span` finds the end of, whatever follows
(`span_write`), and `decode` reads back (`decode_encode`).
-/

namespace Stencil.Text.Literal

/-- A character that opens and closes literals. -/
def isQuote (c : Char) : Bool :=
  c == '"' || c == '\''

/-! ### Where a literal ends

The scan for the closing quote looks at one character, or at two if the first is a backslash. It
never looks behind the quote that it finds, and that is what the two laws at the end of this section
say: what follows a literal may be exchanged (`span_literal`) or go on (`span_append`). -/

/-- **The end of a literal**: splits the text after an opening quote `q` behind the first
quote of that kind that no backslash takes along. There is none if the text ends first. -/
def span (q : Char) : List Char → Option (List Char × List Char)
  | [] => none
  | ['\\'] => none
  | '\\' :: c :: cs => (span q cs).map fun (lit, rest) => ('\\' :: c :: lit, rest)
  | c :: cs =>
    if c = q then some ([c], cs)
    else (span q cs).map fun (lit, rest) => (c :: lit, rest)

/-- Nothing is lost where a literal is split off. -/
theorem append_of_span {q : Char} {cs lit rest : List Char} (h : span q cs = some (lit, rest)) :
    lit ++ rest = cs := by
  fun_induction span q cs generalizing lit rest with
  | case1 => simp at h
  | case2 => simp at h
  | case3 c cs ih =>
    simp only [Option.map_eq_some_iff, Prod.mk.injEq] at h
    obtain ⟨⟨l, r⟩, hs, rfl, rfl⟩ := h
    simp [ih hs]
  | case4 cs =>
    simp only [Option.some.injEq, Prod.mk.injEq] at h
    obtain ⟨rfl, rfl⟩ := h
    rfl
  | case5 c cs _ _ hq ih =>
    simp only [Option.map_eq_some_iff, Prod.mk.injEq] at h
    obtain ⟨⟨l, r⟩, hs, rfl, rfl⟩ := h
    simp [ih hs]

/-- A literal ends with a quote, so what follows it is shorter than what it began. This is why a
lexer that takes literals away comes to an end. -/
theorem length_lt_of_span {q : Char} {cs lit rest : List Char}
    (h : span q cs = some (lit, rest)) : rest.length < cs.length := by
  fun_induction span q cs generalizing lit rest with
  | case1 => simp at h
  | case2 => simp at h
  | case3 c cs ih =>
    simp only [Option.map_eq_some_iff, Prod.mk.injEq] at h
    obtain ⟨⟨l, r⟩, hs, rfl, rfl⟩ := h
    have := ih hs
    simp only [List.length_cons]
    omega
  | case4 cs =>
    simp only [Option.some.injEq, Prod.mk.injEq] at h
    obtain ⟨rfl, rfl⟩ := h
    simp
  | case5 c cs _ _ hq ih =>
    simp only [Option.map_eq_some_iff, Prod.mk.injEq] at h
    obtain ⟨⟨l, r⟩, hs, rfl, rfl⟩ := h
    have := ih hs
    simp only [List.length_cons]
    omega

/-- Only a backslash is looked at together with what follows it. -/
theorem span_cons_of_ne {q c : Char} (hb : c ≠ '\\') (cs : List Char) :
    span q (c :: cs)
      = if c = q then some ([c], cs)
        else (span q cs).map fun (lit, rest) => (c :: lit, rest) := by
  rw [span]
  · exact fun h _ => hb h
  · exact fun _ _ h _ => hb h

/-- A character that is neither a backslash nor the closing quote belongs to the literal. -/
theorem span_cons {q c : Char} (hb : c ≠ '\\') (hq : c ≠ q) (cs : List Char) :
    span q (c :: cs) = (span q cs).map fun (lit, rest) => (c :: lit, rest) := by
  rw [span_cons_of_ne hb, if_neg hq]

/-- A character is no backslash if it is none in front of nothing and none in front of something.
The last case of `span` knows this of its character in these two halves, from the patterns before it
that did not match. -/
theorem ne_backslash {c : Char} {cs : List Char} (hnil : c = '\\' → cs = [] → False)
    (hcons : ∀ d ds, c = '\\' → cs = d :: ds → False) : c ≠ '\\' := by
  intro hc
  cases cs with
  | nil => exact hnil hc rfl
  | cons d ds => exact hcons d ds hc rfl

/-- **A literal ends where it does**, whatever stands behind it. Nothing behind the closing quote is
looked at to find it. -/
theorem span_literal {q : Char} {cs lit rest : List Char} (h : span q cs = some (lit, rest))
    (other : List Char) : span q (lit ++ other) = some (lit, other) := by
  fun_induction span q cs generalizing lit rest with
  | case1 => cases h
  | case2 => cases h
  | case3 c cs ih =>
    simp only [Option.map_eq_some_iff, Prod.mk.injEq] at h
    obtain ⟨⟨l, r⟩, hs, rfl, rfl⟩ := h
    simp [span, ih hs]
  -- the closing quote: from here on the text behind it may be any
  | case4 cs hnil hcons =>
    cases h
    rw [List.singleton_append, span_cons_of_ne (ne_backslash hnil hcons), if_pos rfl]
  | case5 c cs hnil hcons hq ih =>
    simp only [Option.map_eq_some_iff, Prod.mk.injEq] at h
    obtain ⟨⟨l, r⟩, hs, rfl, rfl⟩ := h
    rw [List.cons_append, span_cons (ne_backslash hnil hcons) hq, ih hs]
    rfl

/-- More text behind it goes to what follows the literal. -/
theorem span_append {q : Char} {cs lit rest : List Char} (h : span q cs = some (lit, rest))
    (more : List Char) : span q (cs ++ more) = some (lit, rest ++ more) := by
  rw [← append_of_span h, List.append_assoc]
  exact span_literal h _

/-! ### Reading

What a backslash means is decided when the literal is read, and not when its end is looked for: a
literal that ends as it should may still have a `Flaw`. -/

/-- Why the inside of a literal cannot be read. -/
inductive Flaw
  /-- a backslash before characters that name nothing; they are given without it -/
  | unknownEscape (sequence : List Char)
  /-- a backslash with nothing after it -/
  | danglingBackslash
  deriving DecidableEq, Repr

/-- The character that a single character after a backslash stands for. -/
def named? : Char → Option Char
  | 'n' => some '\n'
  | 't' => some '\t'
  | 'r' => some '\r'
  | '0' => some '\x00'
  | 'a' => some '\x07'
  | 'b' => some '\x08'
  | 'f' => some '\x0c'
  | 'v' => some '\x0b'
  | '\\' => some '\\'
  | '\'' => some '\''
  | '"' => some '"'
  | _ => none

/-- The value of a hexadecimal digit, of either case. -/
def hexValue? (c : Char) : Option Nat :=
  if '0' ≤ c ∧ c ≤ '9' then some (c.toNat - '0'.toNat)
  else if 'a' ≤ c ∧ c ≤ 'f' then some (c.toNat - 'a'.toNat + 10)
  else if 'A' ≤ c ∧ c ≤ 'F' then some (c.toNat - 'A'.toNat + 10)
  else none

/-- **The text a literal stands for**, read from what is between its quotes: `\x` takes two
hexadecimal digits, every other backslash the one character it names. -/
def decode : List Char → Except Flaw (List Char)
  | [] => .ok []
  | '\\' :: 'x' :: h :: l :: cs =>
    match hexValue? h, hexValue? l with
    | some a, some b => (decode cs).map (Char.ofNat (16 * a + b) :: ·)
    | _, _ => .error (.unknownEscape ['x', h, l])
  | '\\' :: 'x' :: cs => .error (.unknownEscape ('x' :: cs))
  | ['\\'] => .error .danglingBackslash
  | '\\' :: c :: cs =>
    match named? c with
    | some d => (decode cs).map (d :: ·)
    | none => .error (.unknownEscape [c])
  | c :: cs => (decode cs).map (c :: ·)

/-- What is between the quotes of a literal. -/
def body (literal : List Char) : List Char :=
  (literal.drop 1).dropLast

/-! ### Writing

Each character is written apart, and `decode` and `span` take what one character is written as in
one go, whatever stands behind it (`decode_encodeChar`, `span_encodeChar`). So the laws about whole
texts are inductions over the characters of the text that is written, not over what is written. -/

/-- The characters below space, and delete. -/
def isControl (c : Char) : Bool :=
  c.toNat < 0x20 || c.toNat == 0x7F

/-- How one character is written inside double quotes. -/
def encodeChar (c : Char) : List Char :=
  if c = '"' then ['\\', '"']
  else if c = '\\' then ['\\', '\\']
  else if c = '\n' then ['\\', 'n']
  else if c = '\t' then ['\\', 't']
  else if c = '\r' then ['\\', 'r']
  else if isControl c then
    ['\\', 'x', Nat.digitChar (c.toNat / 16), Nat.digitChar (c.toNat % 16)]
  else [c]

/-- How a text is written inside double quotes. -/
def encode (cs : List Char) : List Char :=
  cs.flatMap encodeChar

/-- **The double-quoted form** of a text, in which double quotes, backslashes and control characters
are written with a backslash. Single quotes stand as they are. -/
def write (cs : List Char) : List Char :=
  '"' :: (encode cs ++ ['"'])

/-- A digit that is written below sixteen has the value that it was written for. There are sixteen
of them, so they are all tried. -/
theorem hexValue?_digitChar {n : Nat} (h : n < 16) :
    hexValue? (Nat.digitChar n) = some n := by
  revert n
  decide

/-- A control character is what its two hexadecimal digits say: they are quotient and remainder of
its code point by sixteen. -/
theorem ofNat_hexDigits (c : Char) : Char.ofNat (16 * (c.toNat / 16) + c.toNat % 16) = c := by
  rw [Nat.div_add_mod]
  exact Char.ofNat_toNat c

/-- What one character is written as reads back as that character, and reading goes on behind it. -/
theorem decode_encodeChar (c : Char) (cs : List Char) :
    decode (encodeChar c ++ cs) = (decode cs).map (c :: ·) := by
  unfold encodeChar
  split
  · next h => subst h; rfl
  split
  · next h => subst h; rfl
  split
  · next h => subst h; rfl
  split
  · next h => subst h; rfl
  split
  · next h => subst h; rfl
  split
  · next hc =>
    -- a control character is below 128, so both of its digits are below sixteen
    have hlt : c.toNat < 128 := by
      simp only [isControl, Bool.or_eq_true, decide_eq_true_eq, beq_iff_eq] at hc
      omega
    simp only [List.cons_append, List.nil_append, decode,
      hexValue?_digitChar (show c.toNat / 16 < 16 by omega),
      hexValue?_digitChar (show c.toNat % 16 < 16 by omega), ofNat_hexDigits]
  · next hb _ _ _ _ =>
    rw [List.singleton_append, decode]
    all_goals simp_all

/-- **Reading undoes writing**: the inside of a written literal stands for the text it
was written from. -/
theorem decode_encode (cs : List Char) : decode (encode cs) = .ok cs := by
  induction cs with
  | nil => rfl
  | cons c cs ih =>
    rw [encode, List.flatMap_cons, decode_encodeChar, ← encode, ih]
    rfl

/-- Hexadecimal digits are neither quotes nor backslashes. -/
theorem digitChar_ne {n : Nat} (h : n < 16) :
    Nat.digitChar n ≠ '\\' ∧ Nat.digitChar n ≠ '"' := by
  revert n
  decide

/-- **Nothing is written with control characters**, not even a control character: its digits are
letters and numerals. So a written literal has no line feed in it, and cannot move the lines of what
follows. -/
theorem isControl_eq_false_of_mem_encodeChar {c d : Char} (h : d ∈ encodeChar c) :
    isControl d = false := by
  have digit {n : Nat} (hn : n < 16) : isControl (Nat.digitChar n) = false := by
    revert n
    decide
  rw [encodeChar] at h
  repeat' split at h
  -- the one case that writes digits, and the one that writes the character itself; in the others
  -- two given characters are written
  case isFalse.isFalse.isFalse.isFalse.isFalse.isTrue hcontrol =>
    have hlt : c.toNat < 128 := by
      simp only [isControl, Bool.or_eq_true, decide_eq_true_eq, beq_iff_eq] at hcontrol
      omega
    simp only [List.mem_cons, List.not_mem_nil, or_false] at h
    rcases h with rfl | rfl | rfl | rfl
    · rfl
    · rfl
    · exact digit (by omega)
    · exact digit (by omega)
  case isFalse.isFalse.isFalse.isFalse.isFalse.isFalse hcontrol =>
    rw [List.mem_singleton.1 h]
    exact eq_false_of_ne_true hcontrol
  all_goals
    simp only [List.mem_cons, List.not_mem_nil, or_false] at h
    rcases h with rfl | rfl <;> rfl

theorem isControl_eq_false_of_mem_write {d : Char} {cs : List Char} (h : d ∈ write cs) :
    isControl d = false := by
  rw [write, List.mem_cons, List.mem_append, List.mem_singleton] at h
  rcases h with rfl | h | rfl
  · rfl
  · obtain ⟨c, -, hc⟩ := List.mem_flatMap.1 h
    exact isControl_eq_false_of_mem_encodeChar hc
  · rfl

/-- Inside a double-quoted literal, the writing of one character never ends it. -/
theorem span_encodeChar (c : Char) (cs : List Char) :
    span '"' (encodeChar c ++ cs)
      = (span '"' cs).map fun (lit, rest) => (encodeChar c ++ lit, rest) := by
  unfold encodeChar
  split
  · rfl
  split
  · rfl
  split
  · rfl
  split
  · rfl
  split
  · rfl
  split
  · next hc =>
    have hlt : c.toNat < 128 := by
      simp only [isControl, Bool.or_eq_true, decide_eq_true_eq, beq_iff_eq] at hc
      omega
    -- neither digit is a backslash or a quote, so both belong to the literal
    obtain ⟨hb₁, hq₁⟩ := digitChar_ne (show c.toNat / 16 < 16 by omega)
    obtain ⟨hb₂, hq₂⟩ := digitChar_ne (show c.toNat % 16 < 16 by omega)
    simp only [List.cons_append, List.nil_append, span, span_cons hb₁ hq₁, span_cons hb₂ hq₂,
      Option.map_map]
    rfl
  · next hq hb _ _ _ _ => exact span_cons hb hq cs

/-- **A written literal ends where it was ended**, whatever follows it: neither a quote nor a
backslash of the text is written as itself. -/
theorem span_write (cs rest : List Char) :
    span '"' ((write cs).tail ++ rest) = some ((write cs).tail, rest) := by
  simp only [write, List.tail_cons]
  induction cs with
  | nil => simp [encode, span]
  | cons c cs ih =>
    simp only [encode, List.flatMap_cons, List.append_assoc] at ih ⊢
    rw [span_encodeChar, ih]
    rfl

end Stencil.Text.Literal
