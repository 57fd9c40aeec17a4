import Stencil.Proofs.Bytes.Encoding
import Stencil.Proofs.Expr.Literals

/-!
# Scanning bytes

The ends of literals and directives, found byte by byte. Behind a backslash two bytes are passed,
which can end inside a character; but what is left of that character are bytes that are no ASCII
characters, so nothing in it is taken for a quote, a brace or a backslash, and the ends are those
that are found character by character, on every text and from every place (`quotedEnd_eq`,
`directiveEnd_eq`).
-/

namespace Stencil

open Text.Literal (isQuote)

/-- **The place behind a literal** of a quote, for a place inside it. A backslash makes it pass two
bytes, whatever the second of them belongs to. -/
def quotedEnd (bytes : List UInt8) (quote : UInt8) (i : Nat) : Option Nat :=
  if h : i < bytes.length then
    if bytes[i] = '\\'.toUInt8 then quotedEnd bytes quote (i + 2)
    else if bytes[i] = quote then some (i + 1)
    else quotedEnd bytes quote (i + 1)
  else none
termination_by bytes.length - i

/-- A literal ends behind where one is inside it. -/
theorem lt_of_quotedEnd {bytes : List UInt8} {quote : UInt8} {i stop : Nat}
    (h : quotedEnd bytes quote i = some stop) : i < stop := by
  fun_induction quotedEnd bytes quote i with
  | case1 i hlt hbackslash ih => have := ih h; omega
  | case2 => cases h; omega
  | case3 i hlt hbackslash hquote ih => have := ih h; omega
  | case4 => cases h

/-- **The place behind a directive**, for a place inside it and outside its literals. A literal in
it is passed as a whole, by `quotedEnd`. -/
def directiveEnd (bytes : List UInt8) (i : Nat) : Option Nat :=
  if h : i < bytes.length then
    if bytes[i] = '}'.toUInt8 ∧ bytes[i + 1]? = some '}'.toUInt8 then some (i + 2)
    else if bytes[i] = '"'.toUInt8 ∨ bytes[i] = '\''.toUInt8 then
      match hquoted : quotedEnd bytes bytes[i] (i + 1) with
      | none => none
      | some stop =>
        have := lt_of_quotedEnd hquoted
        directiveEnd bytes stop
    else directiveEnd bytes (i + 1)
  else none
termination_by bytes.length - i

/-! ### Characters and their bytes

The scanners compare bytes with quotes, braces and backslashes only, which are ASCII characters.
Those are one byte each, and no byte of another character is below 128, so a byte that compares
equal is that character (`toUInt8_inj`, `ne_toUInt8_of_le`). From a place inside a character on, a
text is therefore some bytes that nothing is found in, and then whole characters
(`exists_drop_utf8`). -/

/-- An ASCII character is one byte. -/
theorem utf8EncodeChar_of_lt {c : Char} (h : c.toNat < 128) :
    String.utf8EncodeChar c = [c.toUInt8] := by
  have hle : c.val.toNat ≤ 0x7f := Nat.le_of_lt_succ h
  rw [String.utf8EncodeChar, if_pos hle]
  rfl

theorem utf8_cons_of_lt {c : Char} (h : c.toNat < 128) (cs : List Char) :
    utf8 (c :: cs) = c.toUInt8 :: utf8 cs := by
  rw [utf8_cons, utf8EncodeChar_of_lt h, List.singleton_append]

theorem utf8Size_of_lt {c : Char} (h : c.toNat < 128) : c.utf8Size = 1 := by
  rw [← String.length_utf8EncodeChar, utf8EncodeChar_of_lt h, List.length_singleton]

/-- **No byte of another character is an ASCII character.** This is what makes it safe to look for
quotes, backslashes and braces among bytes. -/
theorem le_of_mem_utf8EncodeChar {c : Char} (h : 128 ≤ c.toNat) :
    ∀ byte ∈ String.utf8EncodeChar c, 128 ≤ byte.toNat := by
  have hnot : ¬ c.val.toNat ≤ 0x7f := Nat.not_le_of_lt h
  intro byte hbyte
  rw [String.utf8EncodeChar, if_neg hnot] at hbyte
  -- two, three or four bytes, each with its highest bit set
  split at hbyte
  · simp only [List.mem_cons, List.not_mem_nil, or_false] at hbyte
    rcases hbyte with rfl | rfl <;> simp <;> omega
  split at hbyte
  · simp only [List.mem_cons, List.not_mem_nil, or_false] at hbyte
    rcases hbyte with rfl | rfl | rfl <;> simp <;> omega
  · simp only [List.mem_cons, List.not_mem_nil, or_false] at hbyte
    rcases hbyte with rfl | rfl | rfl | rfl <;> simp <;> omega

theorem toNat_toUInt8 {c : Char} (h : c.toNat < 128) : c.toUInt8.toNat = c.toNat :=
  Nat.mod_eq_of_lt (Nat.lt_trans h (by decide))

/-- ASCII characters are told apart by their bytes. -/
theorem toUInt8_inj {c d : Char} (hc : c.toNat < 128) (hd : d.toNat < 128) :
    c.toUInt8 = d.toUInt8 ↔ c = d := by
  constructor
  · intro h
    have hnat := congrArg UInt8.toNat h
    rw [toNat_toUInt8 hc, toNat_toUInt8 hd] at hnat
    exact Char.toNat_inj.1 hnat
  · rintro rfl
    rfl

/-- A byte that is no ASCII character is not one. -/
theorem ne_toUInt8_of_le {byte : UInt8} {c : Char} (h : 128 ≤ byte.toNat) (hc : c.toNat < 128) :
    byte ≠ c.toUInt8 := by
  rintro rfl
  rw [toNat_toUInt8 hc] at h
  omega

theorem toNat_lt_of_isQuote {q : Char} (h : isQuote q = true) : q.toNat < 128 := by
  simp only [isQuote, Bool.or_eq_true, beq_iff_eq] at h
  rcases h with rfl | rfl <;> decide

theorem toNat_toUInt8_lt_of_isQuote {q : Char} (h : isQuote q = true) : q.toUInt8.toNat < 128 := by
  rw [toNat_toUInt8 (toNat_lt_of_isQuote h)]
  exact toNat_lt_of_isQuote h

/-- **From any place on, a text goes on inside a character and then with whole characters.** So a
search that begins anywhere is one that begins between characters, after some bytes that do not
matter. -/
theorem exists_drop_utf8 (n : Nat) (cs : List Char) :
    ∃ inside, (utf8 cs).drop n = inside ++ utf8 (dropBytes n cs) ∧
      ∀ byte ∈ inside, 128 ≤ byte.toNat := by
  induction cs generalizing n with
  | nil => exact ⟨[], by cases n <;> rfl, nofun⟩
  | cons c cs ih =>
    cases n with
    | zero => exact ⟨[], rfl, nofun⟩
    | succ n =>
      rw [utf8_cons, dropBytes, List.drop_append, String.length_utf8EncodeChar]
      rcases Nat.lt_or_ge (n + 1) c.utf8Size with hlt | hge
      · -- inside of a character, which is therefore not ASCII
        have hhigh : 128 ≤ c.toNat := by
          refine Nat.le_of_not_lt fun hascii => ?_
          have hsize := utf8Size_of_lt hascii
          omega
        refine ⟨(String.utf8EncodeChar c).drop (n + 1), ?_, fun byte hbyte =>
          le_of_mem_utf8EncodeChar hhigh byte (List.mem_of_mem_drop hbyte)⟩
        rw [Nat.sub_eq_zero_of_le (Nat.le_of_lt hlt)]
        cases cs <;> rfl
      -- behind the whole character
      · obtain ⟨inside, hdrop, hinside⟩ := ih (n + 1 - c.utf8Size)
        refine ⟨inside, ?_, hinside⟩
        rw [List.drop_eq_nil_of_le (by simpa using hge), hdrop, List.nil_append]
      · exact Nat.succ_ne_zero n

/-! ### The end of a literal

What a scanner does from a place on depends on the bytes from there on, which is `bytes.drop i`.
Each lemma below takes that as the text that is left and says which place the scanner goes on from;
together they follow the cases of `Text.Literal.span`. -/

section Scan

variable {bytes passed rest : List UInt8} {byte quote : UInt8} {i : Nat}

theorem drop_add_length (h : bytes.drop i = passed ++ rest) :
    bytes.drop (i + passed.length) = rest := by
  rw [← List.drop_drop, h, List.drop_left]

/-- The byte at a place that something is left from. -/
theorem exists_getElem_of_drop_eq_cons (h : bytes.drop i = byte :: rest) :
    ∃ hlt : i < bytes.length, bytes[i] = byte := by
  have hlt : i < bytes.length := by
    refine Nat.lt_of_not_le fun hle => ?_
    rw [List.drop_eq_nil_of_le hle] at h
    cases h
  rw [List.drop_eq_getElem_cons hlt] at h
  exact ⟨hlt, (List.cons.inj h).1⟩

theorem quotedEnd_of_drop_eq_nil (h : bytes.drop i = []) : quotedEnd bytes quote i = none := by
  rw [quotedEnd, dif_neg (Nat.not_lt_of_le (List.drop_eq_nil_iff.1 h))]

/-- What is done with one byte. -/
theorem quotedEnd_of_drop_eq_cons (h : bytes.drop i = byte :: rest) :
    quotedEnd bytes quote i
      = if byte = '\\'.toUInt8 then quotedEnd bytes quote (i + 2)
        else if byte = quote then some (i + 1)
        else quotedEnd bytes quote (i + 1) := by
  obtain ⟨hlt, rfl⟩ := exists_getElem_of_drop_eq_cons h
  rw [quotedEnd, dif_pos hlt]

/-- **Bytes that are no ASCII characters are passed**, as many of them as there are in a row. -/
theorem quotedEnd_of_drop_eq_append (hquote : quote.toNat < 128)
    (hpassed : ∀ byte ∈ passed, 128 ≤ byte.toNat) (h : bytes.drop i = passed ++ rest) :
    quotedEnd bytes quote i = quotedEnd bytes quote (i + passed.length) := by
  induction passed generalizing i with
  | nil => rfl
  | cons byte passed ih =>
    obtain ⟨hbyte, hmore⟩ := List.forall_mem_cons.1 hpassed
    have hquoteNe : byte ≠ quote := by
      rintro rfl
      omega
    have hnext : bytes.drop (i + 1) = passed ++ rest := @drop_add_length _ [byte] _ i h
    rw [quotedEnd_of_drop_eq_cons h, if_neg (ne_toUInt8_of_le hbyte (by decide)), if_neg hquoteNe,
      ih hmore hnext, List.length_cons, Nat.add_assoc, Nat.add_comm 1]

/-- So is a whole character that is neither the quote nor a backslash. -/
theorem quotedEnd_of_drop_eq_char {q c : Char} (hq : isQuote q = true) (hbackslash : c ≠ '\\')
    (hquote : c ≠ q) (h : bytes.drop i = String.utf8EncodeChar c ++ rest) :
    quotedEnd bytes q.toUInt8 i = quotedEnd bytes q.toUInt8 (i + c.utf8Size) := by
  have hqlt := toNat_lt_of_isQuote hq
  rw [← String.length_utf8EncodeChar]
  rcases Nat.lt_or_ge c.toNat 128 with hascii | hhigh
  · have hbyteBackslash : c.toUInt8 ≠ '\\'.toUInt8 :=
      fun heq => hbackslash ((toUInt8_inj hascii (by decide)).1 heq)
    have hbyteQuote : c.toUInt8 ≠ q.toUInt8 := fun heq => hquote ((toUInt8_inj hascii hqlt).1 heq)
    rw [utf8EncodeChar_of_lt hascii] at h ⊢
    rw [quotedEnd_of_drop_eq_cons h, if_neg hbyteBackslash, if_neg hbyteQuote]
    rfl
  · exact quotedEnd_of_drop_eq_append (toNat_toUInt8_lt_of_isQuote hq)
      (le_of_mem_utf8EncodeChar hhigh) h

/-- **A backslash takes the next character along**, though only its first byte is skipped: the bytes
behind that are no ASCII characters, and are passed. -/
theorem quotedEnd_of_drop_eq_backslash {q c : Char} {cs : List Char} (hq : isQuote q = true)
    (h : bytes.drop i = utf8 ('\\' :: c :: cs)) :
    quotedEnd bytes q.toUInt8 i = quotedEnd bytes q.toUInt8 (i + 1 + c.utf8Size) := by
  have hchar : bytes.drop (i + 1) = utf8 (c :: cs) := @drop_add_length _ ['\\'.toUInt8] _ i h
  obtain ⟨inside, hdrop, hinside⟩ := exists_drop_utf8 1 (c :: cs)
  have hbehind : dropBytes 1 (c :: cs) = cs := by
    rw [dropBytes, Nat.sub_eq_zero_of_le c.utf8Size_pos]
    · cases cs <;> rfl
    · exact Nat.one_ne_zero
  rw [hbehind] at hdrop
  have hsize : 1 + inside.length = c.utf8Size := by
    have hlength := congrArg List.length hdrop
    have hpos := c.utf8Size_pos
    simp only [List.length_drop, List.length_append, length_utf8, byteLength_cons] at hlength
    omega
  -- of the character taken along, the bytes behind its first are passed as no ASCII characters
  have hskip : bytes.drop (i + 2) = inside ++ utf8 cs := by
    rw [← hdrop, ← hchar, List.drop_drop]
  rw [quotedEnd_of_drop_eq_cons (show bytes.drop i = '\\'.toUInt8 :: utf8 (c :: cs) from h),
    if_pos rfl, quotedEnd_of_drop_eq_append (toNat_toUInt8_lt_of_isQuote hq) hinside hskip]
  congr 1
  omega

/-- **The place behind a literal** is found byte by byte where it is character by character, and
there is none for the one if there is none for the other. -/
theorem quotedEnd_of_drop_eq_utf8 {q : Char} (hq : isQuote q = true) {cs : List Char}
    (h : bytes.drop i = utf8 cs) :
    quotedEnd bytes q.toUInt8 i
      = (Text.Literal.span q cs).map fun found => i + byteLength found.1 := by
  -- along the scanner of characters: each of its steps is some steps on bytes
  fun_induction Text.Literal.span q cs generalizing i with
  | case1 => exact quotedEnd_of_drop_eq_nil h
  -- a backslash is the last character, and the two bytes passed go beyond the end
  | case2 =>
    have hend : bytes.drop (i + 2) = [] := by rw [← List.drop_drop, h]; rfl
    rw [quotedEnd_of_drop_eq_cons (show bytes.drop i = ['\\'.toUInt8] from h), if_pos rfl,
      quotedEnd_of_drop_eq_nil hend]
    rfl
  | case3 c cs ih =>
    have hbackslash : ('\\').utf8Size = 1 := rfl
    have hnext : bytes.drop (i + 1 + c.utf8Size) = utf8 cs := by
      have hlength : 1 + c.utf8Size = (utf8 ['\\', c]).length := by simp [hbackslash]
      rw [Nat.add_assoc, hlength]
      exact drop_add_length (by simpa using h)
    rw [quotedEnd_of_drop_eq_backslash hq h, ih hnext, Option.map_map]
    congr 1
    funext found
    simp [hbackslash, Nat.add_assoc]
  | case4 cs =>
    rw [utf8_cons, utf8EncodeChar_of_lt (toNat_lt_of_isQuote hq)] at h
    rw [quotedEnd_of_drop_eq_cons h, if_neg, if_pos rfl]
    · simp [utf8Size_of_lt (toNat_lt_of_isQuote hq)]
    · rw [toUInt8_inj (toNat_lt_of_isQuote hq) (by decide)]
      exact ne_backslash_of_isQuote hq
  | case5 c cs hnil hcons hquote ih =>
    have hnext : bytes.drop (i + c.utf8Size) = utf8 cs := by
      rw [← String.length_utf8EncodeChar]
      exact drop_add_length h
    rw [quotedEnd_of_drop_eq_char hq (Text.Literal.ne_backslash hnil hcons) hquote h, ih hnext,
      Option.map_map]
    congr 1
    funext found
    simp [Nat.add_assoc]

/-! ### The end of a directive

The same for directives. A literal is no step of its own in `spanDirective`, which goes on inside of
it with the quote open; here it is passed at once, so the proof is by the length of what is left and
not along that function. -/

theorem directiveEnd_of_drop_eq_nil (h : bytes.drop i = []) : directiveEnd bytes i = none := by
  rw [directiveEnd, dif_neg (Nat.not_lt_of_le (List.drop_eq_nil_iff.1 h))]

/-- What is done with one byte. -/
theorem directiveEnd_of_drop_eq_cons (h : bytes.drop i = byte :: rest) :
    directiveEnd bytes i
      = if byte = '}'.toUInt8 ∧ rest.head? = some '}'.toUInt8 then some (i + 2)
        else if byte = '"'.toUInt8 ∨ byte = '\''.toUInt8 then
          (quotedEnd bytes byte (i + 1)).bind (directiveEnd bytes)
        else directiveEnd bytes (i + 1) := by
  obtain ⟨hlt, rfl⟩ := exists_getElem_of_drop_eq_cons h
  have hnext : bytes[i + 1]? = rest.head? := by
    rw [← List.head?_drop, ← List.drop_drop, h, List.drop_one, List.tail_cons]
  rw [directiveEnd, dif_pos hlt, hnext]
  congr 2
  split
  · next hquoted => rw [hquoted, Option.bind_none]
  · next stop hquoted =>
    change directiveEnd bytes stop = _
    rw [hquoted, Option.bind_some]

/-- **Bytes that are no ASCII characters are passed.** -/
theorem directiveEnd_of_drop_eq_append (hpassed : ∀ byte ∈ passed, 128 ≤ byte.toNat)
    (h : bytes.drop i = passed ++ rest) :
    directiveEnd bytes i = directiveEnd bytes (i + passed.length) := by
  induction passed generalizing i with
  | nil => rfl
  | cons byte passed ih =>
    obtain ⟨hbyte, hmore⟩ := List.forall_mem_cons.1 hpassed
    have hnext : bytes.drop (i + 1) = passed ++ rest := @drop_add_length _ [byte] _ i h
    have hno {c : Char} (hc : c.toNat < 128) : byte ≠ c.toUInt8 := ne_toUInt8_of_le hbyte hc
    rw [directiveEnd_of_drop_eq_cons h, if_neg fun hbrace => hno (by decide) hbrace.1,
      if_neg (not_or.2 ⟨hno (by decide), hno (by decide)⟩), ih hmore hnext, List.length_cons,
      Nat.add_assoc, Nat.add_comm 1]

/-- A text begins with the byte of an ASCII character where it begins with the character. -/
theorem head?_utf8_eq_some_iff {c : Char} (hc : c.toNat < 128) {cs : List Char} :
    (utf8 cs).head? = some c.toUInt8 ↔ cs.head? = some c := by
  cases cs with
  | nil => simp
  | cons d cs =>
    rcases Nat.lt_or_ge d.toNat 128 with hascii | hhigh
    · rw [utf8_cons, utf8EncodeChar_of_lt hascii]
      simp [toUInt8_inj hascii hc]
    · -- its first byte is no ASCII character, and it is not
      obtain ⟨byte, bytes, hbytes⟩ := List.exists_cons_of_ne_nil (@String.utf8EncodeChar_ne_nil d)
      have hbyte : byte ≠ c.toUInt8 := by
        refine ne_toUInt8_of_le (le_of_mem_utf8EncodeChar hhigh byte ?_) hc
        rw [hbytes]
        exact List.mem_cons_self
      have hchar : d ≠ c := by
        rintro rfl
        omega
      simp [hbytes, hbyte, hchar]

/-- **A character outside literals that is neither a quote nor the first of the closing braces** is
passed. -/
theorem directiveEnd_of_drop_eq_char {c : Char} {cs : List Char} (hquote : isQuote c = false)
    (hbraces : c = '}' → cs.head? ≠ some '}') (h : bytes.drop i = utf8 (c :: cs)) :
    directiveEnd bytes i = directiveEnd bytes (i + c.utf8Size) := by
  rcases Nat.lt_or_ge c.toNat 128 with hascii | hhigh
  · have hbyte {d : Char} (hd : d.toNat < 128) : c.toUInt8 = d.toUInt8 ↔ c = d :=
      toUInt8_inj hascii hd
    simp only [isQuote, Bool.or_eq_false_iff, beq_eq_false_iff_ne] at hquote
    rw [utf8_cons_of_lt hascii] at h
    rw [directiveEnd_of_drop_eq_cons h, if_neg, if_neg, utf8Size_of_lt hascii]
    · rw [hbyte (by decide), hbyte (by decide), not_or]
      exact hquote
    · rw [hbyte (by decide), head?_utf8_eq_some_iff (by decide)]
      exact fun hboth => hbraces hboth.1 hboth.2
  · rw [← String.length_utf8EncodeChar]
    exact directiveEnd_of_drop_eq_append (le_of_mem_utf8EncodeChar hhigh) h

/-- **A quote** opens a literal, and the search goes on behind it. -/
theorem directiveEnd_of_drop_eq_quote {q : Char} {cs : List Char} (hq : isQuote q = true)
    (h : bytes.drop i = utf8 (q :: cs)) :
    directiveEnd bytes i
      = (Text.Literal.span q cs).bind fun found =>
          directiveEnd bytes (i + 1 + byteLength found.1) := by
  have hascii := toNat_lt_of_isQuote hq
  rw [utf8_cons_of_lt hascii] at h
  have hnext : bytes.drop (i + 1) = utf8 cs := @drop_add_length _ [q.toUInt8] _ i h
  rw [directiveEnd_of_drop_eq_cons h, if_neg, if_pos, quotedEnd_of_drop_eq_utf8 hq hnext]
  · cases Text.Literal.span q cs with
    | none => rfl
    | some found => rfl
  · simpa [isQuote, toUInt8_inj hascii] using hq
  · rintro ⟨hbrace, -⟩
    obtain rfl := (toUInt8_inj hascii (by decide)).1 hbrace
    cases hq

/-- **The place behind a directive** is found byte by byte where it is character by character. The
literals inside it are passed as a whole by both. -/
theorem directiveEnd_of_drop_eq_utf8 {cs : List Char} (h : bytes.drop i = utf8 cs) :
    directiveEnd bytes i
      = (spanDirective none cs).map fun found => i + byteLength found.1 := by
  -- on what is left, since a literal is passed at once
  induction hn : cs.length using Nat.strongRecOn generalizing cs i with
  | ind n ih =>
    subst hn
    cases cs with
    | nil => exact directiveEnd_of_drop_eq_nil h
    | cons c cs =>
      have hnext : bytes.drop (i + c.utf8Size) = utf8 cs := by
        rw [← String.length_utf8EncodeChar]
        exact drop_add_length h
      by_cases hbraces : c = '}' ∧ cs.head? = some '}'
      · obtain ⟨rfl, hhead⟩ := hbraces
        obtain ⟨ds, rfl⟩ := List.head?_eq_some_iff.1 hhead
        have hcons : bytes.drop i = '}'.toUInt8 :: utf8 ('}' :: ds) := h
        rw [directiveEnd_of_drop_eq_cons hcons, if_pos ⟨rfl, rfl⟩]
        rfl
      cases hquote : isQuote c with
      | false =>
        rw [directiveEnd_of_drop_eq_char hquote (fun hc hhead => hbraces ⟨hc, hhead⟩) h,
          ih cs.length (Nat.lt_succ_self _) hnext rfl, spanDirective_none_cons hbraces, quoteOpened,
          if_neg (by simp [hquote]), Option.map_map]
        congr 1
        funext found
        simp [Nat.add_assoc]
      | true =>
        have hsize := utf8Size_of_lt (toNat_lt_of_isQuote hquote)
        rw [hsize] at hnext
        rw [directiveEnd_of_drop_eq_quote hquote h, spanDirective_none_quote hquote]
        cases hliteral : Text.Literal.span c cs with
        | none => rfl
        | some found =>
          obtain ⟨literal, rest⟩ := found
          -- the search goes on behind the literal
          have hbehind : bytes.drop (i + 1 + byteLength literal) = utf8 rest := by
            rw [← length_utf8]
            refine drop_add_length (hnext.trans ?_)
            rw [← utf8_append, Text.Literal.append_of_span hliteral]
          have hlt : rest.length < (c :: cs).length :=
            Nat.lt_succ_of_lt (Text.Literal.length_lt_of_span hliteral)
          rw [Option.bind_some, Option.bind_some, ih rest.length hlt hbehind rfl, Option.map_map]
          congr 1
          funext found
          simp [hsize, Nat.add_assoc]

end Scan

/-! ### From any place on

A scanner that starts inside a character passes the rest of it, so it finds what is found from the
first boundary on. Its answer is a place in the whole text; counted from the end it no longer
depends on where the scanner started. -/

/-- The place behind something that is taken, counted from the beginning of a text and from its
end. -/
theorem add_length_add_byteLength {cs taken rest : List Char} {inside : List UInt8} {i : Nat}
    (h : (utf8 cs).drop i = inside ++ utf8 (taken ++ rest)) (hne : taken ≠ []) :
    i + inside.length + byteLength taken = byteLength cs - byteLength rest := by
  have hlength := congrArg List.length h
  have hpos := byteLength_pos hne
  simp only [List.length_drop, List.length_append, length_utf8, byteLength_append] at hlength
  omega

/-- What is taken of a literal is not empty. -/
theorem ne_nil_of_span {q : Char} {cs literal rest : List Char}
    (h : Text.Literal.span q cs = some (literal, rest)) : literal ≠ [] := by
  rintro rfl
  have hlt := Text.Literal.length_lt_of_span h
  rw [← Text.Literal.append_of_span h] at hlt
  exact Nat.lt_irrefl _ hlt

/-- What is taken of a directive is not empty. -/
theorem ne_nil_of_spanDirective {quote : Option Char} {cs inside rest : List Char}
    (h : spanDirective quote cs = some (inside, rest)) : inside ≠ [] := by
  rintro rfl
  unfold spanDirective at h
  split at h <;> simp at h

/-- **The end of a literal, byte by byte**, is the one that is found character by character, from
the first boundary on. -/
theorem quotedEnd_eq {q : Char} (hq : isQuote q = true) (cs : List Char) (i : Nat) :
    quotedEnd (utf8 cs) q.toUInt8 i
      = (Text.Literal.span q (dropBytes i cs)).map fun found =>
          byteLength cs - byteLength found.2 := by
  obtain ⟨inside, hdrop, hinside⟩ := exists_drop_utf8 i cs
  rw [quotedEnd_of_drop_eq_append (toNat_toUInt8_lt_of_isQuote hq) hinside hdrop,
    quotedEnd_of_drop_eq_utf8 hq (drop_add_length hdrop)]
  -- the same place, counted from the beginning and from the end
  refine Option.map_congr fun found hfound => ?_
  rw [← Text.Literal.append_of_span hfound] at hdrop
  exact add_length_add_byteLength hdrop (ne_nil_of_span hfound)

/-- **The end of a directive, byte by byte**, is the one that is found character by character, from
the first boundary on. -/
theorem directiveEnd_eq (cs : List Char) (i : Nat) :
    directiveEnd (utf8 cs) i
      = (spanDirective none (dropBytes i cs)).map fun found =>
          byteLength cs - byteLength found.2 := by
  obtain ⟨inside, hdrop, hinside⟩ := exists_drop_utf8 i cs
  rw [directiveEnd_of_drop_eq_append hinside hdrop,
    directiveEnd_of_drop_eq_utf8 (drop_add_length hdrop)]
  refine Option.map_congr fun found hfound => ?_
  rw [← append_of_spanDirective hfound] at hdrop
  exact add_length_add_byteLength hdrop (ne_nil_of_spanDirective hfound)

end Stencil
